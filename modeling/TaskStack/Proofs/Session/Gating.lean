import TaskStack.Proofs.Session.Provenance
import Mathlib.Data.List.Induction

/-!
# Only submitters ask engines

Of the five moves of a call, four ask an engine or change what is remembered about a task, and all
four belong to submitters. A call never changes its context, so in any other role it is a sequence
of the fifth: it runs bodies, and bodies leave a trace in the history only. That holds of the calls
made from those bodies too, since they find the same context.

**Theorem (`callWithin_gated`).** A call in another role than that of a submitter leaves everything
as it was, but for the bodies that the history notes, and so does every call from those bodies. So
whenever an engine is asked in a run, it is asked in the course of a call that began in a submitter.

* `Moves.onlyRunsBodies`: what the moves of another role do.
* `callsWithin_context`: calls from bodies find the context of the call.
* `performAll_asksEngine`: where in a run the engines are asked.
-/

namespace TaskStack

/-- An engine is handed a descriptor or a call. -/
def Event.asksEngine : Event → Bool
  | .register .. | .submit .. => true
  | .body .. => false

namespace Session

variable {s s' s'' : Session}

/-! ## Moves outside submitters -/

/-- The two sessions differ in the bodies that the later one has run. -/
def OnlyRunsBodies (s s' : Session) : Prop :=
  ∃ ids : List TaskId, s' = { s with fleet := { s.fleet with
    history := ids.map (.body · s.context.role) ++ s.fleet.history } }

theorem OnlyRunsBodies.refl (s : Session) : s.OnlyRunsBodies s := ⟨[], rfl⟩

theorem OnlyRunsBodies.trans (h : s.OnlyRunsBodies s') (h' : s'.OnlyRunsBodies s'') :
    s.OnlyRunsBodies s'' := by
  obtain ⟨ids, rfl⟩ := h
  obtain ⟨ids', rfl⟩ := h'
  exact ⟨ids' ++ ids, by simp⟩

theorem Move.onlyRunsBodies (h : Move s s') (hrole : s.context.role ≠ .submitter) :
    s.OnlyRunsBodies s' := by
  cases h with
  | handOver hs _ _ _ => exact absurd hs.role hrole
  | handOverDerived hs _ _ _ _ => exact absurd hs.role hrole
  | submitDerived _ hs _ _ => exact absurd hs.role hrole
  | submit _ hs _ _ => exact absurd hs.role hrole
  | @body id t _ _ => exact ⟨[id], rfl⟩

theorem Moves.onlyRunsBodies (h : Moves s s') (hrole : s.context.role ≠ .submitter) :
    s.OnlyRunsBodies s' := by
  refine h.keeps (I := fun u => s.OnlyRunsBodies u) ?_ (.refl s)
  intro u u' hmove hu
  have hcontext : u.context = s.context := by
    obtain ⟨ids, rfl⟩ := hu
    rfl
  exact hu.trans (hmove.onlyRunsBodies (hcontext ▸ hrole))

/-- Bodies are no engines. -/
theorem OnlyRunsBodies.asksEngine (h : s.OnlyRunsBodies s') :
    ∃ bodies, s'.fleet.history = bodies ++ s.fleet.history ∧
      ∀ e ∈ bodies, e.asksEngine = false := by
  obtain ⟨ids, rfl⟩ := h
  refine ⟨_, rfl, ?_⟩
  intro e he
  obtain ⟨id, -, rfl⟩ := List.mem_map.1 he
  rfl

/-! ## The context of the calls from bodies -/

theorem calls_context {callTask : String → Args → Session → Except Fault Value × Session}
    {callsOf : String → Args → Session → List Call}
    (hmoves : ∀ name args s, Moves s (callTask name args s).2)
    (hcalls : ∀ name args s, ∀ c ∈ callsOf name args s, c.session.context = s.context)
    (p : Program) (s : Session) :
    ∀ c ∈ p.calls callTask callsOf s, c.session.context = s.context := by
  induction p generalizing s with
  | done r => simp [Program.calls]
  | call task args next ih =>
    have hcontext := (hmoves task args s).extends.context
    intro c hc
    rw [Program.calls] at hc
    obtain hc | hc := List.mem_append.1 hc
    · exact hcalls task args s c hc
    · generalize callTask task args s = answer at hcontext hc
      obtain ⟨fault | v, s'⟩ := answer
      · cases fault with
        | error e => exact (ih _ s' c hc).trans hcontext
        | panic text => cases hc
        | tooDeep => cases hc
      · exact (ih _ s' c hc).trans hcontext

/-- Every call that a call leads to begins in the same context. -/
theorem callsWithin_context (depth : Nat) (id : TaskId) (args : Args) (s : Session) :
    ∀ c ∈ callsWithin depth id args s, c.session.context = s.context := by
  induction depth generalizing id args s with
  | zero => simp [callsWithin]
  | succ depth ih =>
    rw [callsWithin]
    cases ht : s.task? id with
    | none => simp
    | some t =>
      have hcontext := (enter_moves ht args).extends.context
      have hnamed (name : String) (args : Args) (s : Session) :
          ∀ c ∈ callsWithin.callsNamed (callsWithin depth) name args s,
            c.session.context = s.context := by
        unfold callsWithin.callsNamed
        cases s.names.get? name with
        | none => simp
        | some id => exact ih id args s
      refine List.forall_mem_cons.2 ⟨rfl, ?_⟩
      generalize s.enter id t args = answer at hcontext ⊢
      obtain ⟨result | program, s'⟩ := answer
      · simp
      · intro c hc
        have hlater := calls_context (callNamed_moves (callWithin_moves depth)) hnamed program s'
        exact (hlater c hc).trans hcontext

/-! ## Where a run asks engines -/

/-- A command that adds an event of an engine is a call of a submitter. -/
theorem perform_asksEngine {c : Command} {later earlier : List Event} {e : Event}
    (h : (s.perform c).fleet.history = later ++ e :: (earlier ++ s.fleet.history))
    (he : e.asksEngine = true) :
    s.context.role = .submitter ∧ ∃ id args depth, c = .call id args depth := by
  by_cases hc : ∃ id args depth, c = .call id args depth
  · refine ⟨?_, hc⟩
    obtain ⟨id, args, depth, rfl⟩ := hc
    by_contra hrole
    obtain ⟨bodies, hbodies, hnone⟩ :=
      ((callWithin_moves depth id args s).onlyRunsBodies hrole).asksEngine
    have hadded : bodies = later ++ e :: earlier := by
      refine (List.append_left_inj s.fleet.history).1 ?_
      rw [← hbodies, List.append_assoc, List.cons_append]
      exact h
    have hmem : e ∈ bodies := by simp [hadded]
    rw [hnone e hmem] at he
    cases he
  · have hsame := (perform_prepares (s := s) fun id args depth heq =>
      hc ⟨id, args, depth, heq⟩).history
    have hlength := congrArg List.length (hsame.symm.trans h)
    simp only [List.length_append, List.length_cons] at hlength
    omega

/-- An event of the history stands in the course of a call that began in a submitter. -/
def InSubmitterCall (commands : List Command) (earlier : List Event) (e : Event) : Prop :=
  ∃ before id args depth after, commands = before ++ .call id args depth :: after ∧
    let begun := ({} : Session).performAll before
    begun.context.role = .submitter ∧ begun.fleet.history <:+ earlier ∧
      e :: earlier <:+ (callWithin depth id args begun).2.fleet.history

theorem InSubmitterCall.append {commands : List Command} {earlier : List Event} {e : Event}
    (h : InSubmitterCall commands earlier e) (more : List Command) :
    InSubmitterCall (commands ++ more) earlier e := by
  obtain ⟨before, id, args, depth, after, rfl, h⟩ := h
  exact ⟨before, id, args, depth, after ++ more, by simp, h⟩

/-- **In a run only calls of submitters ask engines.** -/
theorem performAll_asksEngine (commands : List Command) {later earlier : List Event} {e : Event}
    (h : (({} : Session).performAll commands).fleet.history = later ++ e :: earlier)
    (he : e.asksEngine = true) : InSubmitterCall commands earlier e := by
  induction commands using List.reverseRecOn generalizing later with
  | nil => simp [performAll] at h
  | append_singleton commands c ih =>
    rw [performAll_append] at h
    have hold : (({} : Session).performAll commands).fleet.history <:+ later ++ e :: earlier :=
      h ▸ (Reaches.refl.perform c).grows.history
    -- the event is older than the command, or the command has added it
    obtain hmem | hmem := List.suffix_or_suffix_of_suffix (List.suffix_append later _) hold
    · obtain ⟨later', hlater'⟩ := hmem
      exact (ih hlater'.symm).append [c]
    · obtain heq | ⟨between, rfl⟩ := List.suffix_cons_iff.1 hmem
      · exact (@ih [] heq).append [c]
      · obtain ⟨hrole, id, args, depth, rfl⟩ := perform_asksEngine h he
        refine ⟨commands, id, args, depth, [], rfl, hrole, List.suffix_append .., ?_⟩
        exact ⟨later, h.symm⟩

/-- **Only submitters ask engines.** A call in another role asks none and leaves all that is
remembered about the tasks; the calls from its body are in that role too; and whatever an engine is
asked in a run, it is asked in a call that began in a submitter. -/
theorem callWithin_gated :
    (∀ (s : Session) (depth : Nat) (id : TaskId) (args : Args), s.context.role ≠ .submitter →
      let s' := (callWithin depth id args s).2
      s'.fleet.engines = s.fleet.engines ∧ s'.tasks = s.tasks ∧ s'.context = s.context ∧
        ∃ bodies, s'.fleet.history = bodies ++ s.fleet.history ∧
          ∀ e ∈ bodies, e.asksEngine = false) ∧
    (∀ (s : Session) (depth : Nat) (id : TaskId) (args : Args),
      ∀ c ∈ callsWithin depth id args s, c.session.context = s.context) ∧
    ∀ (commands : List Command) (later earlier : List Event) (e : Event),
      (({} : Session).performAll commands).fleet.history = later ++ e :: earlier →
      e.asksEngine = true → InSubmitterCall commands earlier e := by
  refine ⟨?_, fun s depth id args => callsWithin_context depth id args s, ?_⟩
  · intro s depth id args hrole s'
    have hbodies : s.OnlyRunsBodies s' :=
      (callWithin_moves depth id args s).onlyRunsBodies hrole
    refine ⟨?_, ?_, ?_, hbodies.asksEngine⟩
    all_goals
      obtain ⟨ids, heq⟩ := hbodies
      rw [heq]
  · intro commands later earlier e h he
    exact performAll_asksEngine commands h he

/-- A task whose argument a derived task doubles as a list, and whose body calls the idle one. -/
def paired : Declaration where
  info := ⟨"demo", "paired", { params := [{ name := "x" }] }⟩
  layers := [.transformation [{ param := "x", function := fun v _ => .ok (.array [v, v]) }],
    .task {}]
  body b := .call "idle" {} fun _ => .done (b.require "x")

/-- A submitter calls the task and goes on as a worker. -/
def handsOn : List Command :=
  [.addEngine {}, .declare "idle" idle, .declare "paired" paired, .startSubmitter 0,
    .call 1 (.ofPositional [.null]) 2, .stop, .startWorker]

/-- The submitter asks the engine six times, and the worker, that calls the task again, never. -/
theorem callWithin_gated_handsOn :
    let s := ({} : Session).performAll handsOn
    s.context.role = .worker ∧ s.fleet.history.countP Event.asksEngine = 6 ∧
      (callWithin 2 1 (.ofPositional [.null]) s).1.isOk = true ∧
      (callWithin 2 1 (.ofPositional [.null]) s).2.tasks = s.tasks ∧
      ∃ later e, s.fleet.history = later ++ [e] ∧ e.asksEngine = true ∧
        InSubmitterCall handsOn [] e := by
  obtain ⟨hworker, -, hrun⟩ := callWithin_gated
  obtain ⟨-, htasks, -⟩ :=
    hworker (({} : Session).performAll handsOn) 2 1 (.ofPositional [.null]) (by decide)
  have hlast : (({} : Session).performAll handsOn).fleet.history =
      [_, _, _, _, _, _, _] ++ [.register 0 (.task 1) _ (.ok ())] := rfl
  exact ⟨by decide, by decide, by decide, htasks, _, _, hlast, rfl, hrun _ _ _ _ hlast rfl⟩

end Session
end TaskStack
