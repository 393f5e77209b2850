import TaskStack.Proofs.Session.Past
import TaskStack.Proofs.Session.Runs

/-!
# A descriptor is handed over once

The history of a run tells what is remembered about a task. As long as nothing is remembered, no
engine has taken the descriptor of the task, none was asked to run it, and no submitter has run its
body. From the moment that an engine takes the descriptor, no engine is handed it again. Every move
keeps this, because a move hands a descriptor over only when none is remembered and uses one only
when it is.

A call whose hand-over fails ends with the failure and leaves the task as it was. All it can change
is the engine it asked, and the history; so what comes after is as if it had never been made.

**Theorem (`handsOverOnce_of_reaches`).** At every point of a run of commands, also in the midst of
a call, the descriptor of a task was taken at most once, before any use of it, and for good; and a
call that fails to hand it over leaves no trace but in the engine it asked.

* `Move.settled`, `Reaches.settled`: the invariant on the history.
* `forgets_of_fails`: a failed hand-over is forgotten.
-/

namespace TaskStack

namespace Event

/-- An engine is handed the descriptor of the task. -/
def handsOver (id : TaskId) : Event → Bool
  | .register _ (.task id') _ _ => id' = id
  | _ => false

/-- An engine takes the descriptor of the task. -/
def accepts (id : TaskId) : Event → Bool
  | .register _ (.task id') _ (.ok ()) => id' = id
  | _ => false

/-- A submitter relies on the descriptor of the task: it submits the task or runs its body. -/
def uses (id : TaskId) : Event → Bool
  | .submit _ (.task id') _ _ _ => id' = id
  | .body id' .submitter => id' = id
  | _ => false

theorem accepts_eq_false {id : TaskId} {e : Event} (h : e.handsOver id = false) :
    e.accepts id = false := by
  unfold accepts
  split
  · exact h
  · rfl

theorem uses_eq_false {id : TaskId} {e : Event} (h : e.accepts id = true) :
    e.uses id = false := by
  unfold accepts at h
  split at h
  · rfl
  · cases h

end Event

namespace Session

variable {s s' : Session} {id : TaskId}

/-! ## What the history tells -/

/-- The history tells what was handed over for a task. -/
def Settled (id : TaskId) : Option Registered → List Event → Prop
  | none, history => ∀ e ∈ history, e.accepts id = false ∧ e.uses id = false
  | some r, history => ∃ later engine earlier,
      history = later ++ .register engine (.task id) r.descriptor (.ok ()) :: earlier ∧
        (∀ e ∈ later, e.handsOver id = false) ∧
        ∀ e ∈ earlier, e.accepts id = false ∧ e.uses id = false

/-- An event that takes no descriptor of the task and has the right to happen. -/
theorem Settled.cons {o : Option Registered} {history : List Event} (h : Settled id o history)
    {e : Event} (hnone : o = none → e.accepts id = false ∧ e.uses id = false)
    (hsome : o ≠ none → e.handsOver id = false) : Settled id o (e :: history) := by
  cases o with
  | none => exact List.forall_mem_cons.2 ⟨hnone rfl, h⟩
  | some r =>
    obtain ⟨later, engine, earlier, rfl, hlater, hearlier⟩ := h
    have he := hsome (Option.some_ne_none r)
    exact ⟨e :: later, engine, earlier, rfl, List.forall_mem_cons.2 ⟨he, hlater⟩, hearlier⟩

theorem Settled.cons_of_handsOver_eq_false {o : Option Registered} {history : List Event}
    (h : Settled id o history) {e : Event} (he : e.handsOver id = false)
    (hu : o = none → e.uses id = false) : Settled id o (e :: history) :=
  h.cons (fun ho => ⟨Event.accepts_eq_false he, hu ho⟩) fun _ => he

/-- What is remembered about every task is what the history tells. -/
def IsSettled (s : Session) : Prop := ∀ id, Settled id (s.handedOver? id) s.fleet.history

theorem handedOver?_setTask {t : Task} (ht : s.task? id = some t) (t' : Task) (fleet : Fleet)
    (id' : TaskId) :
    ({ s with fleet }.setTask id t').handedOver? id' =
      if id = id' then t'.registration.registered? else s.handedOver? id' := by
  rw [handedOver?]
  split
  · next h =>
    subst h
    rw [task?_setTask_self (s := { s with fleet }) ht]
    rfl
  · next h =>
    rw [task?_setTask_of_ne _ _ h]
    rfl

theorem handedOver?_of_pending {t : Task} (ht : s.task? id = some t)
    (hp : t.registration = .pending) : s.handedOver? id = none := by
  rw [handedOver?, ht, Option.bind_some, hp]
  rfl

theorem handedOver?_of_done {t : Task} {r : Registered} (ht : s.task? id = some t)
    (hr : t.registration = .done r) : s.handedOver? id = some r :=
  handedOver?_eq_some_iff.2 ⟨t, ht, hr⟩

/-- A task whose descriptor is remembered is none of those for which nothing is. -/
theorem ne_of_done {t : Task} {r : Registered} {id' : TaskId} (ht : s.task? id = some t)
    (hr : t.registration = .done r) (hnone : s.handedOver? id' = none) : id ≠ id' := by
  rintro rfl
  cases hnone.symm.trans (handedOver?_of_done ht hr)

theorem handOver_settled {t : Task} {engine : EngineId} {r : Registered}
    (ht : s.task? id = some t) (hp : t.registration = .pending) (h : s.IsSettled) :
    (s.handOver engine id t r).IsSettled := by
  intro id'
  have hid := h id
  rw [handedOver?_of_pending ht hp] at hid
  rw [handOver, handedOver?_setTask ht]
  obtain ⟨-, hf⟩ | ⟨answer, engines, hf⟩ :=
    s.fleet.register_cases engine (.task id) r.descriptor
  · -- there is no such engine, so nothing was asked and nothing is remembered
    rw [hf]
    split
    · next heq => exact heq ▸ hid
    · exact h id'
  · rw [hf]
    split
    · next heq =>
      subst heq
      cases answer with
      | ok u => exact ⟨[], engine, s.fleet.history, rfl, by simp, hid⟩
      | error fault => cases fault <;> exact hid.cons (fun _ => ⟨rfl, rfl⟩) (fun h => absurd rfl h)
    · next hne =>
      exact (h id').cons_of_handsOver_eq_false (by simpa [Event.handsOver] using hne) fun _ => rfl

/-- What happens besides to a session in which nothing is handed over for a task. -/
theorem IsSettled.of_event (h : s.IsSettled)
    (hsame : ∀ id, s'.handedOver? id = s.handedOver? id)
    (hevent : s'.fleet.history = s.fleet.history ∨ ∃ e, s'.fleet.history = e :: s.fleet.history ∧
      ∀ id, e.handsOver id = false ∧ (s.handedOver? id = none → e.uses id = false)) :
    s'.IsSettled := by
  intro id
  rw [hsame]
  obtain heq | ⟨e, heq, he⟩ := hevent
  · rw [heq]
    exact h id
  · rw [heq]
    exact (h id).cons_of_handsOver_eq_false (he id).1 (he id).2

theorem Move.settled (h : Move s s') (hs : s.IsSettled) : s'.IsSettled := by
  cases h with
  | handOver _ ht hp _ => exact handOver_settled ht hp hs
  | @handOverDerived id t engine index param specs _ ht _ _ _ =>
    refine hs.of_event ?_ ?_
    · intro id'
      rw [Session.handOverDerived, handedOver?_setTask ht]
      split
      · next heq =>
        rw [← heq, handedOver?, ht]
        rfl
      · rfl
    · obtain hsame | ⟨d, answer, hcons⟩ := s.handOverDerived_history engine id t index param
      · exact .inl hsame
      · exact .inr ⟨_, hcons, fun _ => ⟨rfl, fun _ => rfl⟩⟩
  | submitDerived args _ _ _ =>
    refine hs.of_event (fun _ => rfl) ?_
    obtain hsame | hcons := s.submitted_history _ _ _ Derived.schema args
    · exact .inl hsame
    · exact .inr ⟨_, hcons, fun _ => ⟨rfl, fun _ => rfl⟩⟩
  | @submit id t engine r args _ ht hr =>
    refine hs.of_event (fun _ => rfl) ?_
    obtain hsame | hcons := s.submitted_history engine (.task id) r.descriptor
      t.declaration.info.schema args
    · exact .inl hsame
    · refine .inr ⟨_, hcons, ?_⟩
      intro id'
      refine ⟨rfl, ?_⟩
      intro hnone
      have hne : id ≠ id' := ne_of_done ht hr hnone
      simpa [Event.uses] using hne
  | @body id t ht hreg =>
    refine hs.of_event (fun _ => rfl) (.inr ⟨_, rfl, ?_⟩)
    intro id'
    refine ⟨rfl, ?_⟩
    intro hnone
    cases hrole : s.context.role with
    | unset => rfl
    | worker => rfl
    | submitter =>
      obtain ⟨r, hr⟩ := hreg hrole
      have hne : id ≠ id' := ne_of_done ht hr hnone
      simpa [Event.uses] using hne

theorem Prepares.settled (h : s.Prepares s') (hs : s.IsSettled) : s'.IsSettled := by
  intro id
  rw [h.handedOver?, h.history]
  exact hs id

theorem Reaches.settled (h : ({} : Session).Reaches s) : s.IsSettled := by
  have hnew : ({} : Session).IsSettled := by
    intro id e he
    cases he
  exact h.keeps (fun _ _ hmove => hmove.settled) (fun _ _ hprep => hprep.settled) hnew

/-! ## At most once, before any use, for good -/

/-- The descriptor of a task is taken at most once, before any use of it, and for good. -/
structure HandsOverOnce (s : Session) (id : TaskId) : Prop where
  atMostOnce : s.fleet.history.countP (Event.accepts id) ≤ 1
  neverAgain : ∀ later e earlier, s.fleet.history = later ++ e :: earlier →
    e.accepts id = true → ∀ x ∈ later, x.handsOver id = false
  beforeUse : ∀ later e earlier, s.fleet.history = later ++ e :: earlier →
    e.uses id = true → ∃ x ∈ earlier, x.accepts id = true
  remembered : ∀ r, s.handedOver? id = some r →
    ∃ engine, .register engine (.task id) r.descriptor (.ok ()) ∈ s.fleet.history
  notRemembered : s.handedOver? id = none → ∀ e ∈ s.fleet.history, e.accepts id = false
  kept : ∀ r, s.handedOver? id = some r → ∀ s', s.Reaches s' → s'.handedOver? id = some r

/-- Two ways to split a list at an element. -/
theorem append_cons_eq_append_cons {α : Type} {l₁ l₂ l₁' l₂' : List α} {a b : α}
    (h : l₁ ++ a :: l₂ = l₁' ++ b :: l₂') :
    (b ∈ l₁ ∧ a ∈ l₂') ∨ (l₁ = l₁' ∧ a = b) ∨ b ∈ l₂ := by
  obtain ⟨m, hm, hb⟩ | ⟨m, hm, hb⟩ := List.append_eq_append_iff.1 h
  · cases m with
    | nil =>
      rw [List.append_nil] at hm
      exact .inr (.inl ⟨hm.symm, (List.cons.inj hb).1⟩)
    | cons x m =>
      rw [(List.cons.inj hb).2]
      exact .inr (.inr (by simp))
  · cases m with
    | nil =>
      rw [List.append_nil] at hm
      exact .inr (.inl ⟨hm, (List.cons.inj hb).1.symm⟩)
    | cons x m =>
      obtain ⟨rfl, rfl⟩ := List.cons.inj hb
      exact .inl ⟨by rw [hm]; simp, by simp⟩

/-- As long as nothing is remembered, nothing was taken or used. -/
theorem handsOverOnce_of_none (ho : s.handedOver? id = none)
    (h : Settled id none s.fleet.history) : s.HandsOverOnce id where
  atMostOnce := by
    have hzero : s.fleet.history.countP (Event.accepts id) = 0 := by
      refine List.countP_eq_zero.2 ?_
      intro e he
      rw [(h e he).1]
      exact Bool.false_ne_true
    rw [hzero]
    exact Nat.zero_le 1
  neverAgain := by
    intro later e earlier heq he
    have hmem : e ∈ s.fleet.history := by simp [heq]
    rw [(h e hmem).1] at he
    cases he
  beforeUse := by
    intro later e earlier heq he
    have hmem : e ∈ s.fleet.history := by simp [heq]
    rw [(h e hmem).2] at he
    cases he
  remembered := by
    intro r hr
    cases ho.symm.trans hr
  notRemembered := fun _ e he => (h e he).1
  kept := by
    intro r hr
    cases ho.symm.trans hr

/-- What is remembered was taken at one point of the history, and only there. -/
theorem handsOverOnce_of_some {r : Registered} (ho : s.handedOver? id = some r)
    (h : Settled id (some r) s.fleet.history) : s.HandsOverOnce id := by
  obtain ⟨later, engine, earlier, hsplit, hlater, hearlier⟩ := h
  have haccepts : (Event.register engine (.task id) r.descriptor (.ok ())).accepts id = true := by
    simp [Event.accepts]
  exact {
    atMostOnce := by
      have hl : later.countP (Event.accepts id) = 0 :=
        List.countP_eq_zero.2 fun e he => by simp [Event.accepts_eq_false (hlater e he)]
      have he : earlier.countP (Event.accepts id) = 0 :=
        List.countP_eq_zero.2 fun e he => by simp [(hearlier e he).1]
      rw [hsplit, List.countP_append, List.countP_cons, hl, he, haccepts]
      exact Nat.le_refl 1
    neverAgain := by
      intro later' e earlier' heq he
      obtain ⟨hmem, -⟩ | ⟨rfl, -⟩ | hmem := append_cons_eq_append_cons (hsplit.symm.trans heq)
      · rw [Event.accepts_eq_false (hlater e hmem)] at he
        cases he
      · exact hlater
      · rw [(hearlier e hmem).1] at he
        cases he
    beforeUse := by
      intro later' e earlier' heq he
      obtain ⟨-, hmem⟩ | ⟨-, rfl⟩ | hmem := append_cons_eq_append_cons (hsplit.symm.trans heq)
      · exact ⟨_, hmem, haccepts⟩
      · rw [Event.uses_eq_false haccepts] at he
        cases he
      · rw [(hearlier e hmem).2] at he
        cases he
    remembered := by
      intro r' hr
      cases ho.symm.trans hr
      exact ⟨engine, by simp [hsplit]⟩
    notRemembered := by
      intro hnone
      cases ho.symm.trans hnone
    kept := fun r' hr s' hs' => hs'.grows.handedOver? hr }

theorem IsSettled.handsOverOnce (h : s.IsSettled) (id : TaskId) : s.HandsOverOnce id := by
  have hid := h id
  cases ho : s.handedOver? id with
  | none =>
    rw [ho] at hid
    exact handsOverOnce_of_none ho hid
  | some r =>
    rw [ho] at hid
    exact handsOverOnce_of_some ho hid

/-! ## A failed hand-over -/

/-- A hand-over that failed ends the call and leaves the task as it was. What comes after is as if
the call had never been made and the engines were as they are now, and the next call of a submitter
makes the descriptor anew. -/
structure FailsToHandOver (s : Session) (id : TaskId) (t : Task) (e : TaskError) (s' : Session) :
    Prop where
  answer : ∀ depth args, callWithin (depth + 1) id args s = (.error (.error e), s')
  unregistered : s'.handedOver? id = none
  frame : s' = { s with fleet := s'.fleet }
  history : s'.fleet.history = s.fleet.history ∨ ∃ engine d, s'.fleet.history =
    .register engine (.task id) d (.error (.error e)) :: s.fleet.history
  forgotten : ∀ commands, let never := { s with fleet := { s'.fleet with
      history := s.fleet.history } }
    (∃ after : Session, s'.performAll commands = after.onto s'.fleet.history ∧
      never.performAll commands = after.onto s.fleet.history) ∧
    ∀ depth id args, (callWithin depth id args (s'.performAll commands)).1 =
      (callWithin depth id args (never.performAll commands)).1
  again : ∀ u, s'.Reaches u → ∀ engine t', u.task? id = some t' → t'.registration = .pending →
    u.Submits engine → (u.engine? engine).isSome → ∀ depth args,
    match Declaration.describe t.declaration.info t.declaration.layers with
    | .error e => callWithin (depth + 1) id args u = (.error (.error e), u)
    | .ok r => ∃ later answer, (callWithin (depth + 1) id args u).2.fleet.history =
        later ++ .register engine (.task id) r.descriptor answer :: u.fleet.history

variable {t : Task}

theorem callWithin_of_error (ht : s.task? id = some t) (hrole : s.context.role = .submitter)
    {fault : Fault} (h : s.ensureRegistered id t s.scope = (.error fault, s')) (depth : Nat)
    (args : Args) : callWithin (depth + 1) id args s = (.error fault, s') := by
  have hscope : s.scope.role = .submitter := hrole
  simp only [callWithin, ht, callInScope, hscope, h]

/-- A hand-over that fails asks an engine at most, and changes nothing else. -/
theorem ensureRegistered_of_error (ht : s.task? id = some t) (hp : t.registration = .pending)
    {e : TaskError} (h : s.ensureRegistered id t s.scope = (.error (.error e), s')) :
    s' = { s with fleet := s'.fleet } ∧
      (s'.fleet.history = s.fleet.history ∨ ∃ engine d, s'.fleet.history =
        .register engine (.task id) d (.error (.error e)) :: s.fleet.history) := by
  obtain ⟨fault, hasked, -⟩ | ⟨r, hr, -⟩ | ⟨engine, r, -, -, -, hasked⟩ :=
    ensureRegistered_cases ht s.scope
  · cases hasked.symm.trans h
    exact ⟨rfl, .inl rfl⟩
  · cases hp.symm.trans hr
  · obtain ⟨hanswer, rfl⟩ := Prod.mk.inj (hasked.symm.trans h)
    have hrefused : (s.fleet.register engine (.task id) r.descriptor).1 = .error (.error e) := by
      cases hreg : (s.fleet.register engine (.task id) r.descriptor).1 with
      | ok u =>
        rw [hreg] at hanswer
        cases hanswer
      | error fault =>
        rw [hreg] at hanswer
        cases hanswer
        rfl
    rw [handOver_of_refused ht hp hrefused]
    obtain ⟨-, hf⟩ | ⟨answer, engines, hf⟩ :=
      s.fleet.register_cases engine (.task id) r.descriptor
    · exact ⟨rfl, .inl (by rw [hf])⟩
    · rw [hf] at hrefused ⊢
      exact ⟨rfl, .inr ⟨engine, r.descriptor, by rw [← hrefused]⟩⟩

/-- What comes after does not depend on the history, so it is the same from two histories. -/
theorem forgotten_of_frame (h : s' = { s with fleet := s'.fleet }) (commands : List Command) :
    let never := { s with fleet := { s'.fleet with history := s.fleet.history } }
    (∃ after : Session, s'.performAll commands = after.onto s'.fleet.history ∧
      never.performAll commands = after.onto s.fleet.history) ∧
    ∀ depth id args, (callWithin depth id args (s'.performAll commands)).1 =
      (callWithin depth id args (never.performAll commands)).1 := by
  intro never
  let blank : Session := { s with fleet := { s'.fleet with history := [] } }
  have hnow : s'.performAll commands = (blank.performAll commands).onto s'.fleet.history := by
    rw [← performAll_onto]
    exact congrArg (performAll · commands) h
  have hnever : never.performAll commands =
      (blank.performAll commands).onto s.fleet.history := by
    rw [← performAll_onto]
    rfl
  refine ⟨⟨_, hnow, hnever⟩, ?_⟩
  intro depth id args
  rw [hnow, hnever, callWithin_oblivious, callWithin_oblivious]

/-- A submitter whose task is not handed over makes the descriptor and hands it to its engine. -/
theorem callWithin_of_pending (ht : s.task? id = some t) (hp : t.registration = .pending)
    {engine : EngineId} (hs : s.Submits engine) (hengine : (s.engine? engine).isSome)
    (depth : Nat) (args : Args) :
    match Declaration.describe t.declaration.info t.declaration.layers with
    | .error e => callWithin (depth + 1) id args s = (.error (.error e), s)
    | .ok r => ∃ later answer, (callWithin (depth + 1) id args s).2.fleet.history =
        later ++ .register engine (.task id) r.descriptor answer :: s.fleet.history := by
  have he : s.scope.engine = some engine := hs.engine
  cases hd : Declaration.describe t.declaration.info t.declaration.layers with
  | error e =>
    refine callWithin_of_error ht hs.role ?_ depth args
    simp only [ensureRegistered, hp, he, hd]
  | ok r =>
    have hrole : s.scope.role = .submitter := hs.role
    have hmoves := callInScope_moves_of_present
      (callNamed_moves (callWithin_moves depth)) ht args
    simp only [present, hrole, ensureRegistered_of_pending ht hp he hd] at hmoves
    obtain ⟨later, hlater⟩ := hmoves.extends.history
    obtain ⟨hnone, -⟩ | ⟨answer, engines, hf⟩ :=
      s.fleet.register_cases engine (.task id) r.descriptor
    · rw [engine?, hnone] at hengine
      cases hengine
    · refine ⟨later, answer, ?_⟩
      simp only [callWithin, ht, ← hlater, handOver, hf]
      rfl

theorem failsToHandOver (ht : s.task? id = some t) (hp : t.registration = .pending)
    (hrole : s.context.role = .submitter) {e : TaskError}
    (h : s.ensureRegistered id t s.scope = (.error (.error e), s')) :
    s.FailsToHandOver id t e s' := by
  obtain ⟨hframe, hhistory⟩ := ensureRegistered_of_error ht hp h
  have ht' : s'.task? id = some t := by
    rw [hframe]
    exact ht
  exact {
    answer := callWithin_of_error ht hrole h
    unregistered := handedOver?_of_pending ht' hp
    frame := hframe
    history := hhistory
    forgotten := forgotten_of_frame hframe
    again := fun u hu engine t' htask hpending hs hengine depth args => by
      obtain ⟨t'', ht'', hext⟩ := hu.grows.tasks ht'
      cases htask.symm.trans ht''
      rw [← hext.declaration]
      exact callWithin_of_pending htask hpending hs hengine depth args }

/-- **A descriptor is handed over once.** So it is at every point of a run; and wherever a call
begins, in a body too, it leaves no trace when it fails to hand the descriptor over. -/
theorem handsOverOnce_of_reaches (id : TaskId) :
    (∀ s, ({} : Session).Reaches s → s.HandsOverOnce id) ∧
      ∀ (s : Session) t e s', s.task? id = some t → t.registration = .pending →
        s.context.role = .submitter → s.ensureRegistered id t s.scope = (.error (.error e), s') →
        s.FailsToHandOver id t e s' := by
  constructor
  · intro s hs
    exact hs.settled.handsOverOnce id
  · intro s t e s' ht hp hrole h
    exact failsToHandOver ht hp hrole h

/-- An engine that refuses the first descriptor it is handed and takes the second. -/
theorem handsOverOnce_of_reaches_refused :
    let d : Declaration := ⟨⟨"demo", "run", {}⟩, [.task {}], fun _ => .done (.ok .null)⟩
    let full : HandoffError := .transport "503"
    let s := ({} : Session).performAll [.addEngine { registerScript :=
      [.answer fun _ => .error full, .answer fun _ => .ok ()] }, .declare "run" d,
      .startSubmitter 0]
    s.HandsOverOnce 0 ∧ ∃ s', s.FailsToHandOver 0 (.new d) (.handoff full) s' ∧
      (callWithin 1 0 {} s').1 = .ok .null := by
  intro d full s
  obtain ⟨honce, hfails⟩ := handsOverOnce_of_reaches 0
  refine ⟨honce s (.performAll .refl _), _, hfails s _ _ _ rfl rfl rfl rfl, ?_⟩
  rfl

end Session
end TaskStack
