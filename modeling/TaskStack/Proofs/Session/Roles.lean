import TaskStack.Proofs.Session.Runs
import Mathlib.Data.List.Induction

/-!
# The role and its engine

Four kinds of commands write the context: a change of role, the start of a submitter, the start of a
worker, and the end of both. They treat the engine differently: a start attaches one or replaces the
one before, leaving the system detaches it, and every other change of role keeps what there is. A
process that becomes a submitter by a plain change of role has none.

**Theorem (`performAll_roles`).** At every point of a run the engine that is attached is the one of
the last start that was accepted, provided that the process has not left the system since; and it is
attached to a submitter only. A command is refused exactly when it asks a submitter to be a worker
or a worker to be a submitter, and then it leaves the session as it was. So on the way from the one
role to the other the process is outside the system, without an engine.

* `perform_context`: what a command answers and does to the context.
* `Context.Sound`: only a submitter has an engine.
* `perform_engine_iff`, `performAll_engine_iff`: where the engine comes from.
* `performAll_unset`: the way between two roles.
-/

namespace TaskStack

/-- The role that a command asks for, if it is about the role. -/
def Command.asks : Command → Option Role
  | .setRole next => some next
  | .startSubmitter _ => some .submitter
  | .startWorker => some .worker
  | .stop => some .unset
  | _ => none

/-- The engine that a command brings along. -/
def Command.brings : Command → Option EngineId
  | .startSubmitter engine => some engine
  | _ => none

/-- Only a submitter has an engine. -/
def Context.Sound (c : Context) : Prop := ∀ engine, c.engine = some engine → c.role = .submitter

namespace Session

variable {s : Session} {c : Command} {engine : EngineId}

/-- Whether the context allows a command. -/
def answer (s : Session) : Command → Except ContextError Unit
  | .setRole next => (s.setRole next).1.map fun _ => ()
  | .startSubmitter engine => (s.startSubmitter engine).1
  | .startWorker => s.startWorker.1
  | _ => .ok ()

/-! ## One command -/

/-- **What a command does to the context.** It has nothing to do with it, is refused, or sets the
role and what goes with it. -/
theorem perform_context (s : Session) (c : Command) :
    (c.asks = none ∧ c.brings = none ∧ s.answer c = .ok () ∧
      (s.perform c).context = s.context) ∨
    ∃ next, c.asks = some next ∧
      ((s.context.role.canMoveTo next = false ∧ s.perform c = s ∧
          s.answer c = .error (.invalidTransition s.context.role next)) ∨
        (s.context.role.canMoveTo next = true ∧ s.answer c = .ok () ∧
          (s.perform c).context =
            ⟨next, if next = .unset then none else c.brings.or s.context.engine⟩)) := by
  have hmove (next : Role) (hnext : s.context.role.canMoveTo next = true) :
      s.setRole next = (.ok s.context.role,
        { s with context := ⟨next, if next = .unset then none else s.context.engine⟩ }) := by
    simp only [setRole, Context.setRole, hnext, if_true]
  have hstay (next : Role) (hnext : s.context.role.canMoveTo next = false) :
      s.setRole next = (.error (.invalidTransition s.context.role next), s) := by
    simp only [setRole, Context.setRole, hnext, Bool.false_eq_true, if_false]
  cases c with
  | addEngine e => exact .inl ⟨rfl, rfl, rfl, rfl⟩
  | declare name d => exact .inl ⟨rfl, rfl, rfl, rfl⟩
  | call id args depth =>
    exact .inl ⟨rfl, rfl, rfl, (callWithin_moves depth id args s).extends.context⟩
  | setRole next =>
    refine .inr ⟨next, rfl, ?_⟩
    cases hnext : s.context.role.canMoveTo next with
    | false =>
      refine .inl ⟨rfl, ?_, ?_⟩
      · rw [perform, hstay next hnext]
      · rw [answer, hstay next hnext]
        rfl
    | true =>
      refine .inr ⟨rfl, ?_, ?_⟩
      · rw [answer, hmove next hnext]
        rfl
      · rw [perform, hmove next hnext]
        rfl
  | startSubmitter engine =>
    refine .inr ⟨.submitter, rfl, ?_⟩
    cases hnext : s.context.role.canMoveTo .submitter with
    | false =>
      have hc : s.context.startSubmitter engine = .error _ := if_neg (by simp [hnext])
      exact .inl ⟨rfl, by rw [perform, startSubmitter, hc]; rfl,
        by rw [answer, startSubmitter, hc]; rfl⟩
    | true =>
      have hc : s.context.startSubmitter engine = .ok _ := if_pos hnext
      exact .inr ⟨rfl, by rw [answer, startSubmitter, hc]; rfl,
        by rw [perform, startSubmitter, hc]; rfl⟩
  | startWorker =>
    refine .inr ⟨.worker, rfl, ?_⟩
    cases hnext : s.context.role.canMoveTo .worker with
    | false =>
      have hc : s.context.setRole .worker = .error _ := if_neg (by simp [hnext])
      exact .inl ⟨rfl, by rw [perform, startWorker, Context.startWorker, hc]; rfl,
        by rw [answer, startWorker, Context.startWorker, hc]; rfl⟩
    | true =>
      have hc : s.context.setRole .worker = .ok _ := if_pos hnext
      exact .inr ⟨rfl, by rw [answer, startWorker, Context.startWorker, hc]; rfl,
        by rw [perform, startWorker, Context.startWorker, hc]; rfl⟩
  | stop => exact .inr ⟨.unset, rfl, .inr ⟨by cases s.context.role <;> rfl, rfl, rfl⟩⟩

/-- A refused command leaves the session as it was, and its error names both roles. -/
theorem perform_of_refused {e : ContextError} (h : s.answer c = .error e) :
    s.perform c = s ∧ ∃ asked, c.asks = some asked ∧
      e = .invalidTransition s.context.role asked := by
  obtain ⟨-, -, hok, -⟩ | ⟨next, hasks, ⟨-, hsame, herror⟩ | ⟨-, hok, -⟩⟩ := s.perform_context c
  · cases hok.symm.trans h
  · cases herror.symm.trans h
    exact ⟨hsame, next, hasks, rfl⟩
  · cases hok.symm.trans h

/-- **What is refused:** to be a worker after a submitter and the reverse. -/
theorem refused_iff (s : Session) (c : Command) :
    (∃ e, s.answer c = .error e) ↔
      (s.context.role = .submitter ∧ c.asks = some .worker) ∨
        (s.context.role = .worker ∧ c.asks = some .submitter) := by
  obtain ⟨hasks, -, hok, -⟩ | ⟨next, hasks, ⟨hmove, -, herror⟩ | ⟨hmove, hok, -⟩⟩ :=
    s.perform_context c
  · simp [hasks, hok]
  · have hroles := Role.canMoveTo_eq_false_iff.1 hmove
    simpa [hasks, herror] using hroles
  · have hroles := mt Role.canMoveTo_eq_false_iff.2 (Bool.ne_false_iff.2 hmove)
    simpa [hasks, hok] using hroles

theorem perform_sound (h : s.context.Sound) (c : Command) : (s.perform c).context.Sound := by
  obtain ⟨-, -, -, hsame⟩ | ⟨next, hasks, ⟨-, hsame, -⟩ | ⟨hmove, -, hcontext⟩⟩ :=
    s.perform_context c
  · rwa [hsame]
  · rwa [hsame]
  · rw [hcontext]
    intro engine he
    cases next with
    | unset => cases he
    | submitter => rfl
    | worker =>
      -- A worker brings no engine, and a submitter with one cannot become a worker.
      have hbrings : c.brings = none := by cases c <;> first | rfl | cases hasks
      simp only [hbrings, Option.none_or, reduceCtorEq, if_false] at he
      rw [h engine he] at hmove
      cases hmove

theorem performAll_sound (commands : List Command) :
    (({} : Session).performAll commands).context.Sound := by
  induction commands using List.reverseRecOn with
  | nil =>
    intro engine he
    cases he
  | append_singleton commands c ih =>
    rw [performAll_append]
    exact perform_sound ih c

/-! ## Where the engine comes from -/

/-- A command is an accepted start of a submitter with the engine. -/
def Starts (s : Session) (c : Command) (engine : EngineId) : Prop :=
  c = .startSubmitter engine ∧ s.answer c = .ok ()

/-- The engine after a command is the one that it started with, or the one before, unless the
command left the system or started with another. -/
theorem perform_engine_iff (h : s.context.Sound) (c : Command) (engine : EngineId) :
    (s.perform c).context.engine = some engine ↔
      s.Starts c engine ∨ (s.context.engine = some engine ∧
        (s.perform c).context.role ≠ .unset ∧ ∀ other, ¬ s.Starts c other) := by
  have hnone (hbrings : c.brings = none) (other : EngineId) : ¬ s.Starts c other := by
    rintro ⟨rfl, -⟩
    cases hbrings
  obtain ⟨-, hbrings, -, hsame⟩ | ⟨next, hasks, ⟨-, hsame, herror⟩ | ⟨hmove, hok, hcontext⟩⟩ :=
    s.perform_context c
  · rw [hsame]
    refine ⟨fun he => .inr ⟨he, by rw [h engine he]; decide, hnone hbrings⟩, ?_⟩
    rintro (hstart | ⟨he, -⟩)
    · exact absurd hstart (hnone hbrings engine)
    · exact he
  · have hrefused (other : EngineId) : ¬ s.Starts c other := by
      rintro ⟨-, hok⟩
      cases herror.symm.trans hok
    rw [hsame]
    refine ⟨fun he => .inr ⟨he, by rw [h engine he]; decide, hrefused⟩, ?_⟩
    rintro (hstart | ⟨he, -⟩)
    · exact absurd hstart (hrefused engine)
    · exact he
  · rw [hcontext]
    cases hbrings : c.brings with
    | none =>
      have hstarts := hnone hbrings engine
      have hothers := hnone hbrings
      by_cases hnext : next = .unset
      · simp [hnext, hstarts]
      · simp [hnext, hstarts, hothers]
    | some engine' =>
      have hc : c = .startSubmitter engine' := by
        cases c <;> cases hbrings
        rfl
      subst hc
      cases hasks
      have hstarts (other : EngineId) :
          s.Starts (.startSubmitter engine') other ↔ engine' = other := by
        simp [Starts, hok]
      simp [hstarts]

/-- In a run of commands the engine was attached by an accepted start, and since then the process
never left the system and no other start was accepted. -/
def LastStarted (commands : List Command) (engine : EngineId) : Prop :=
  ∃ before after, commands = before ++ .startSubmitter engine :: after ∧
    (({} : Session).performAll before).answer (.startSubmitter engine) = .ok () ∧
    ∀ since c rest, after = since ++ c :: rest →
      let s := ({} : Session).performAll (before ++ .startSubmitter engine :: since)
      (s.perform c).context.role ≠ .unset ∧ ∀ other, ¬ s.Starts c other

theorem not_lastStarted_nil (engine : EngineId) : ¬ LastStarted [] engine := by
  rintro ⟨before, after, h, -⟩
  simp at h

/-- The last start of a run that is longer by one command. -/
theorem lastStarted_append (commands : List Command) (c : Command) (engine : EngineId) :
    LastStarted (commands ++ [c]) engine ↔
      (({} : Session).performAll commands).Starts c engine ∨
        (LastStarted commands engine ∧
          ((({} : Session).performAll commands).perform c).context.role ≠ .unset ∧
          ∀ other, ¬ (({} : Session).performAll commands).Starts c other) := by
  constructor
  · rintro ⟨before, after, heq, hstart, hsince⟩
    cases after using List.reverseRecOn with
    | nil =>
      obtain ⟨rfl, hc⟩ := List.append_inj' heq rfl
      cases hc
      exact .inl ⟨rfl, hstart⟩
    | append_singleton after c' =>
      rw [← List.cons_append, ← List.append_assoc] at heq
      obtain ⟨rfl, hc⟩ := List.append_inj' heq rfl
      cases hc
      refine .inr ⟨⟨before, after, rfl, hstart, ?_⟩, hsince after c [] rfl⟩
      rintro since c' rest rfl
      exact hsince since c' (rest ++ [c]) (by simp)
  · rintro (⟨rfl, hstart⟩ | ⟨⟨before, after, rfl, hstart, hsince⟩, hlast⟩)
    · refine ⟨commands, [], rfl, hstart, ?_⟩
      intro since c rest h
      simp at h
    · refine ⟨before, after ++ [c], by simp, hstart, ?_⟩
      intro since c' rest heq
      cases rest using List.reverseRecOn with
      | nil =>
        obtain ⟨rfl, hc⟩ := List.append_inj' heq rfl
        cases hc
        exact hlast
      | append_singleton rest x =>
        rw [← List.cons_append, ← List.append_assoc] at heq
        obtain ⟨rfl, -⟩ := List.append_inj' heq rfl
        exact hsince since c' rest rfl

/-- **The engine is the one of the last start.** -/
theorem performAll_engine_iff (commands : List Command) (engine : EngineId) :
    (({} : Session).performAll commands).context.engine = some engine ↔
      LastStarted commands engine := by
  induction commands using List.reverseRecOn with
  | nil =>
    constructor
    · intro he
      cases he
    · exact fun h => absurd h (not_lastStarted_nil engine)
  | append_singleton commands c ih =>
    rw [performAll_append, lastStarted_append, ← ih]
    exact perform_engine_iff (performAll_sound commands) c engine

/-! ## Between two roles -/

/-- A command that changes one role into another passes through no role. -/
theorem perform_role (s : Session) (c : Command) :
    s.context.role.canMoveTo (s.perform c).context.role = true := by
  have hrefl (r : Role) : r.canMoveTo r = true := by cases r <;> rfl
  obtain ⟨-, -, -, hsame⟩ | ⟨next, -, ⟨-, hsame, -⟩ | ⟨hmove, -, hcontext⟩⟩ :=
    s.perform_context c
  · rw [hsame]
    exact hrefl _
  · rw [hsame]
    exact hrefl _
  · rw [hcontext]
    exact hmove

/-- **Between two roles the process is outside the system.** -/
theorem performAll_unset (commands : List Command)
    (h : s.context.role.canMoveTo (s.performAll commands).context.role = false) :
    ∃ between, between <+: commands ∧ (s.performAll between).context.role = .unset := by
  induction commands generalizing s with
  | nil =>
    change s.context.role.canMoveTo s.context.role = false at h
    cases hrole : s.context.role <;> rw [hrole] at h <;> cases h
  | cons c rest ih =>
    have hmove := s.perform_role c
    by_cases hunset : (s.perform c).context.role = .unset
    · exact ⟨[c], List.cons_prefix_cons.2 ⟨rfl, List.nil_prefix⟩, hunset⟩
    · have hrole : (s.perform c).context.role = s.context.role := by
        cases hs : s.context.role <;> cases hs' : (s.perform c).context.role <;>
          simp_all [Role.canMoveTo]
      obtain ⟨between, hprefix, hbetween⟩ := ih (s := s.perform c) (by rwa [hrole])
      exact ⟨c :: between, List.cons_prefix_cons.2 ⟨rfl, hprefix⟩, hbetween⟩

/-- **The role and its engine.** At every point of a run an engine is attached only to a submitter,
and it is the one of the last start; a command is refused exactly when it asks a submitter to be a
worker or the reverse, and then changes nothing; and between the two roles the process is outside
the system, without an engine. -/
theorem performAll_roles (commands : List Command) :
    let s := ({} : Session).performAll commands
    (∀ engine, s.context.engine = some engine → s.context.role = .submitter) ∧
    (∀ engine, s.context.engine = some engine ↔ LastStarted commands engine) ∧
    (∀ c e, s.answer c = .error e → s.perform c = s ∧
      ∃ asked, c.asks = some asked ∧ e = .invalidTransition s.context.role asked) ∧
    (∀ c, (∃ e, s.answer c = .error e) ↔
      (s.context.role = .submitter ∧ c.asks = some .worker) ∨
        (s.context.role = .worker ∧ c.asks = some .submitter)) ∧
    ∀ later,
      let s' := ({} : Session).performAll (commands ++ later)
      (s.context.role = .submitter ∧ s'.context.role = .worker) ∨
        (s.context.role = .worker ∧ s'.context.role = .submitter) →
      ∃ between, between <+: later ∧
        (({} : Session).performAll (commands ++ between)).context = ⟨.unset, none⟩ := by
  refine ⟨performAll_sound commands, performAll_engine_iff commands,
    fun _ _ => perform_of_refused, refused_iff _, ?_⟩
  intro later s' hroles
  have hfar := Role.canMoveTo_eq_false_iff.2 hroles
  simp only [s', performAll_append] at hfar
  obtain ⟨between, hbetween, hunset⟩ := performAll_unset later hfar
  refine ⟨between, hbetween, ?_⟩
  rw [← performAll_append] at hunset
  have hsound := performAll_sound (commands ++ between)
  generalize (({} : Session).performAll (commands ++ between)).context = context at hunset hsound ⊢
  obtain ⟨role, engine⟩ := context
  cases engine with
  | none => exact congrArg (Context.mk · none) hunset
  | some engine => cases hunset.symm.trans (hsound engine rfl)

/-- A submitter that sets its role once more keeps its engine, is refused as a worker, and becomes
one after it has left the system. -/
theorem performAll_roles_submitter :
    LastStarted [.startSubmitter 0, .startSubmitter 1, .setRole .submitter] 1 ∧
    ∃ between, between <+: [.startWorker, .stop, .startWorker] ∧
      (({} : Session).performAll
        ([.startSubmitter 0, .startSubmitter 1, .setRole .submitter] ++ between)).context =
          ⟨.unset, none⟩ := by
  obtain ⟨-, hengine, -, -, hunset⟩ :=
    performAll_roles [.startSubmitter 0, .startSubmitter 1, .setRole .submitter]
  exact ⟨(hengine 1).1 rfl, hunset [.startWorker, .stop, .startWorker] (.inl ⟨rfl, rfl⟩)⟩

end Session
end TaskStack
