import TaskStack.Proofs.Session.Gating
import TaskStack.Proofs.Session.Terms

/-!
# Locks

A task and each of its transformation layers hand descriptors over under a lock. A panic of the
engine while the lock is held poisons it, and nothing else does, and nothing ever heals it. So the
history tells which locks are poisoned.

A call asks engines on account of its own task only, and in a submitter only after the hand-over of
that task. So once the hand-over has panicked, no later call comes so far, and those that were under
way ended with the panic.

**Theorem (`Reaches.locksTell`).** At every point of a run, also in the midst of a call, a lock is
poisoned exactly if a hand-over under it has panicked.

**Theorem (`performAll_shut`).** After the panic of its own hand-over no engine is asked on account
of a task.

* `Move.poisoned_iff`: a move poisons what it lets panic.
* `enter_shut`, `callWithin_shut`: the way of a call, and the whole call.
-/

namespace TaskStack

/-- What is held during a hand-over: the lock of a task or that of one of its layers. -/
structure Lock where
  task : TaskId
  layer : Option Nat := none
deriving DecidableEq

/-- The lock that is held while an engine is handed a descriptor. -/
def Origin.lock? : Origin → Option Lock
  | .task id => some ⟨id, none⟩
  | .derived id index _ => some ⟨id, some index⟩
  | .other => none

/-- The task on whose account an engine is asked. -/
def Origin.task? : Origin → Option TaskId
  | .task id | .derived id _ _ => some id
  | .other => none

namespace Event

/-- The lock under which a hand-over has panicked. -/
def poisons? : Event → Option Lock
  | .register _ o _ (.error (.panic _)) => o.lock?
  | _ => none

/-- The task on whose account an engine was asked. -/
def account? : Event → Option TaskId
  | .register _ o _ _ | .submit _ o _ _ _ => o.task?
  | .body .. => none

theorem poisons?_register_iff {engine : EngineId} {o : Origin} {d : TaskDescriptor}
    {answer : Except Fault Unit} {lock : Lock} :
    (register engine o d answer).poisons? = some lock ↔
      (∃ text, answer = .error (.panic text)) ∧ o.lock? = some lock := by
  obtain fault | u := answer
  · cases fault <;> simp [poisons?]
  · simp [poisons?]

end Event

theorem Registration.after_eq_poisoned_iff {r : Registered} {answer : Except Fault Unit} :
    Registration.after r answer = .poisoned ↔ ∃ text, answer = .error (.panic text) := by
  obtain fault | u := answer
  · cases fault <;> simp [Registration.after]
  · simp [Registration.after]

theorem Derived.poisoned_after_iff {x : Derived} {param : String} {d : TaskDescriptor}
    {answer : Except Fault Unit} : (x.after param d answer).poisoned = true ↔
      x.poisoned = true ∨ ∃ text, answer = .error (.panic text) := by
  obtain fault | u := answer
  · cases fault <;> simp [Derived.after]
  · simp [Derived.after]

/-- One of the locks of a task is poisoned. -/
def Task.Poisoned (t : Task) : Option Nat → Prop
  | none => t.registration = .poisoned
  | some index => (t.derivedAt index).poisoned = true

namespace Session

variable {s s' : Session} {id : TaskId} {t : Task} {lock : Lock}

/-! ## The history tells which locks are poisoned -/

/-- A lock is poisoned. -/
def Poisoned (s : Session) (lock : Lock) : Prop :=
  ∃ t, s.task? lock.task = some t ∧ t.Poisoned lock.layer

/-- A hand-over under the lock has panicked. -/
def Panicked (s : Session) (lock : Lock) : Prop :=
  ∃ e ∈ s.fleet.history, e.poisons? = some lock

def LocksTell (s : Session) : Prop := ∀ lock, s.Poisoned lock ↔ s.Panicked lock

theorem poisoned_iff (ht : s.task? id = some t) (layer : Option Nat) :
    s.Poisoned ⟨id, layer⟩ ↔ t.Poisoned layer := by
  constructor
  · rintro ⟨t', ht', h⟩
    cases ht.symm.trans ht'
    exact h
  · exact fun h => ⟨t, ht, h⟩

theorem poisoned_of_task?_eq (h : s'.task? lock.task = s.task? lock.task) :
    s'.Poisoned lock ↔ s.Poisoned lock := by
  rw [Poisoned, h, Poisoned]

/-- Changing one task poisons none of the locks of the others. -/
theorem poisoned_setTask_iff (ht : s.task? id = some t) {t' : Task} {fleet : Fleet}
    {P : Lock → Prop}
    (hself : ∀ layer, t'.Poisoned layer ↔ t.Poisoned layer ∨ P ⟨id, layer⟩)
    (hother : ∀ lock, P lock → lock.task = id) (lock : Lock) :
    ({ s with fleet }.setTask id t').Poisoned lock ↔ s.Poisoned lock ∨ P lock := by
  obtain ⟨id', layer⟩ := lock
  by_cases hid : id = id'
  · subst hid
    rw [poisoned_iff (task?_setTask_self (s := { s with fleet }) ht t'), poisoned_iff ht]
    exact hself layer
  · rw [poisoned_of_task?_eq (task?_setTask_of_ne { s with fleet } t' hid)]
    refine ⟨.inl, ?_⟩
    rintro (h | h)
    · exact h
    · exact absurd (hother _ h).symm hid

/-- A move poisons a lock exactly if it adds the panic of a hand-over to the history. -/
theorem Move.poisoned_iff (h : Move s s') : ∃ new, s'.fleet.history = new ++ s.fleet.history ∧
    ∀ lock, s'.Poisoned lock ↔ s.Poisoned lock ∨ ∃ e ∈ new, e.poisons? = some lock := by
  have hquiet : ∀ e : Event, e.poisons? = none → ∀ lock, (s.Poisoned lock ↔
      s.Poisoned lock ∨ ∃ x ∈ [e], x.poisons? = some lock) := by
    intro e he lock
    simp [he]
  cases h with
  | @handOver id t engine r _ ht hp _ =>
    obtain ⟨-, hf⟩ | ⟨answer, engines, hf⟩ :=
      s.fleet.register_cases engine (.task id) r.descriptor
    · have hsame : s.handOver engine id t r = s := by
        rw [handOver_of_refused ht hp (congrArg Prod.fst hf), hf]
      exact ⟨[], by rw [hsame]; rfl, by simp [hsame]⟩
    · refine ⟨[_], congrArg (·.2.history) hf, ?_⟩
      rw [Session.handOver, hf]
      refine poisoned_setTask_iff ht ?_ ?_
      · rintro (_ | index)
        · simp [Task.Poisoned, hp, Registration.after_eq_poisoned_iff, Event.poisons?_register_iff,
            Origin.lock?]
        · simp [Task.Poisoned, Task.derivedAt, Event.poisons?_register_iff, Origin.lock?]
      · rintro lock ⟨e, he, hlock⟩
        rw [List.mem_singleton.1 he, Event.poisons?_register_iff] at hlock
        cases hlock.2
        rfl
  | @handOverDerived id t engine index param specs _ ht hlayer hp _ =>
    obtain ⟨-, hf⟩ | ⟨answer, engines, hf⟩ := s.fleet.register_cases engine
      (.derived id index param) (Derived.descriptor t.declaration.info param)
    · have hsame : s.handOverDerived engine id t index param = s := by
        simp only [Session.handOverDerived, hf, Derived.after, Task.setDerived_derivedAt]
        exact setTask_eq_self ht
      exact ⟨[], by rw [hsame]; rfl, by simp [hsame]⟩
    · refine ⟨[_], congrArg (·.2.history) hf, ?_⟩
      rw [Session.handOverDerived, hf]
      have hlt : index < t.declaration.layers.length := (List.getElem?_eq_some_iff.1 hlayer).1
      refine poisoned_setTask_iff ht ?_ ?_
      · rintro (_ | index')
        · simp [Task.Poisoned, Task.setDerived, Event.poisons?_register_iff, Origin.lock?]
        · by_cases hne : index = index'
          · subst hne
            simp [Task.Poisoned, t.derivedAt_setDerived_self _ hlt, Derived.poisoned_after_iff,
              Event.poisons?_register_iff, Origin.lock?]
          · simp [Task.Poisoned, t.derivedAt_setDerived_of_ne _ hne, Event.poisons?_register_iff,
              Origin.lock?, hne]
      · rintro lock ⟨e, he, hlock⟩
        rw [List.mem_singleton.1 he, Event.poisons?_register_iff] at hlock
        cases hlock.2
        rfl
  | submitDerived args _ _ _ =>
    obtain hsame | hcons := s.submitted_history _ _ _ Derived.schema args
    · exact ⟨[], hsame, fun _ => by simp [Poisoned, submitted, task?]⟩
    · exact ⟨[_], hcons, hquiet _ rfl⟩
  | submit args _ _ _ =>
    obtain hsame | hcons := s.submitted_history _ _ _ _ args
    · exact ⟨[], hsame, fun _ => by simp [Poisoned, submitted, task?]⟩
    · exact ⟨[_], hcons, hquiet _ rfl⟩
  | body _ _ => exact ⟨[_], rfl, hquiet _ rfl⟩

theorem Prepares.poisoned_iff (h : s.Prepares s') (lock : Lock) :
    s'.Poisoned lock ↔ s.Poisoned lock := by
  obtain hsame | ⟨hnone, d, hnew⟩ := h.tasks lock.task
  · exact poisoned_of_task?_eq hsame
  · constructor
    · rintro ⟨t, ht, h⟩
      cases hnew.symm.trans ht
      obtain ⟨id, _ | index⟩ := lock
      · cases h
      · simp [Task.Poisoned] at h
    · rintro ⟨t, ht, -⟩
      cases hnone.symm.trans ht

/-- **The history tells which locks are poisoned.** -/
theorem Reaches.locksTell (h : ({} : Session).Reaches s) : s.LocksTell := by
  refine h.keeps (I := LocksTell) ?_ ?_ ?_
  · intro s s' hmove hs lock
    obtain ⟨new, hnew, hiff⟩ := hmove.poisoned_iff
    rw [hiff lock, hs lock, Panicked, Panicked, hnew]
    simp only [List.mem_append, or_and_right, exists_or]
    exact or_comm
  · intro s s' hprep hs lock
    rw [hprep.poisoned_iff, hs lock, Panicked, Panicked, hprep.history]
  · intro lock
    constructor
    · rintro ⟨t, ht, -⟩
      cases ht
    · rintro ⟨e, he, -⟩
      cases he

/-- A panic is not forgotten. -/
theorem Reaches.panicked (h : s.Reaches s') (hp : s.Panicked lock) : s'.Panicked lock := by
  obtain ⟨e, he, hlock⟩ := hp
  exact ⟨e, h.grows.history.mem he, hlock⟩

/-! ## After the panic of a hand-over -/

/-- After the panic of its hand-over no engine was asked on account of the task. -/
def Shut (id : TaskId) (history : List Event) : Prop :=
  ∀ later e earlier, history = later ++ e :: earlier → e.poisons? = some ⟨id, none⟩ →
    ∀ x ∈ later, x.account? ≠ some id

theorem shut_of_not_panicked (h : ¬ s.Panicked ⟨id, none⟩) : Shut id s.fleet.history := by
  intro later e earlier heq he
  exact absurd ⟨e, by simp [heq], he⟩ h

theorem Shut.cons {history : List Event} (h : Shut id history) {x : Event}
    (hx : x.account? = some id → ∀ e ∈ history, e.poisons? ≠ some ⟨id, none⟩) :
    Shut id (x :: history) := by
  rintro (_ | ⟨y, later⟩) e earlier heq he
  · simp
  · obtain ⟨rfl, rfl⟩ := List.cons.inj heq
    refine List.forall_mem_cons.2 ⟨?_, h later e earlier rfl he⟩
    intro hid
    exact hx hid e (by simp) he

theorem Shut.append {history : List Event} (h : Shut id history) {new : List Event}
    (hnew : ∀ x ∈ new, x.account? ≠ some id) : Shut id (new ++ history) := by
  induction new with
  | nil => exact h
  | cons x new ih =>
    obtain ⟨hx, hnew⟩ := List.forall_mem_cons.1 hnew
    exact (ih hnew).cons fun hid => absurd hid hx

/-- Asking engines on account of one task. -/
def account (id : TaskId) : Dialogue.Terms where
  asks _ o _ := o.task? = some id
  answers _ := True
  admits _ := True

/-- **A call asks engines on account of its own task.** -/
theorem dialogue_account (t : Task) (id : TaskId) (scope : Scope) (args : Args) :
    (t.dialogue id scope args).Keeps (account id) fun _ => True := by
  have hT : (account id).Allow fun _ => True :=
    ⟨fun _ _ _ _ => trivial, fun _ _ _ _ => trivial, trivial, fun _ => trivial, fun _ => trivial⟩
  have hwithin : t.Within id scope (account id) (fun _ => True) fun _ => True :=
    ⟨fun _ _ _ _ => rfl, fun _ => trivial, fun _ _ => trivial,
      fun _ => ⟨fun _ _ _ _ _ _ => rfl, fun _ => trivial⟩, fun _ _ _ _ _ => trivial,
      fun _ _ _ _ => ⟨fun _ _ => trivial, fun _ _ _ => trivial⟩⟩
  exact (Task.dialogue_keeps hT hwithin fun _ _ _ => trivial).mono fun _ _ => trivial

/-- The way of a call keeps away from the account of another task. -/
theorem enter_shut_of_ne {id' : TaskId} (ht : s.task? id' = some t) (hne : id' ≠ id) (args : Args)
    (h : Shut id s.fleet.history) : Shut id (s.enter id' t args).2.fleet.history := by
  have hother : ∀ o : Origin, o.task? = some id' → o.task? ≠ some id := by
    intro o ho hid
    exact hne (Option.some.inj (ho.symm.trans hid))
  have hkeep := (dialogue_account t id' s.scope args).run (I := fun f => Shut id f.history)
    (f := s.fleet) ?_ ?_ ?_ h
  · rw [enter_eq_run ht]
    exact hkeep.2
  · intro f engine o d hf ho
    refine ⟨trivial, ?_⟩
    obtain ⟨-, hr⟩ | ⟨answer, engines, hr⟩ := f.register_cases engine o d
    · exact hr.symm ▸ hf
    · exact hr.symm ▸ hf.cons fun hid => absurd hid (hother o ho)
  · intro f engine o d schema args hf ho
    refine ⟨trivial, ?_⟩
    obtain ⟨-, hr⟩ | ⟨admission, engines, hr⟩ := f.submit_cases engine o d schema args
    · exact hr.symm ▸ hf
    · exact hr.symm ▸ hf.cons fun hid => absurd hid (hother o ho)
  · intro f id role hf
    exact hf.cons fun hid => by cases hid

/-- A hand-over ends the account of its task if it panics. -/
theorem present_shut (hs : s.LocksTell) (ht : s.task? id = some t) (h : Shut id s.fleet.history) :
    Shut id (s.present id t).2.fleet.history := by
  unfold present
  split
  · obtain ⟨fault, hr, -⟩ | ⟨r, -, hr⟩ | ⟨engine, r, hp, -, -, hr⟩ :=
      ensureRegistered_cases ht s.scope
    · exact hr.symm ▸ h
    · exact hr.symm ▸ h
    · rw [hr]
      obtain hsame | ⟨answer, hcons⟩ := s.handOver_history engine id t r
      · exact hsame.symm ▸ h
      · have hnone : ¬ s.Panicked ⟨id, none⟩ := by
          rw [← hs, poisoned_iff ht, Task.Poisoned, hp]
          exact nofun
        exact hcons.symm ▸ h.cons fun _ e he hlock => hnone ⟨e, he, hlock⟩
  · exact h

/-- A submitter that gets past the hand-over of a task has it handed over. -/
theorem not_panicked_of_present (hs : ({} : Session).Reaches s) (ht : s.task? id = some t)
    (hrole : s.context.role = .submitter) {x : Option TaskDescriptor}
    (hx : (s.present id t).1 = .ok x) (args : Args) :
    ¬ (s.enter id t args).2.Panicked ⟨id, none⟩ := by
  obtain ⟨hmoves, hcarries⟩ := s.present_moves ht
  obtain ⟨⟨t', ht', -, hreg⟩, hsub⟩ := hcarries x hx
  obtain ⟨d, hd⟩ := Option.isSome_iff_exists.1 (hsub (hmoves.extends.context ▸ hrole))
  obtain ⟨r, hr, -⟩ := hreg d hd
  obtain ⟨t'', ht'', hext⟩ := (enter_moves_of_present ht args).extends.tasks ht'
  have hreaches : ({} : Session).Reaches (s.enter id t args).2 := hs.moves (enter_moves ht args)
  rw [← hreaches.locksTell, poisoned_iff ht'', Task.Poisoned, hext.registration r hr]
  exact nofun

theorem enter_shut {id' : TaskId} (hs : ({} : Session).Reaches s) (ht : s.task? id' = some t)
    (args : Args) (h : Shut id s.fleet.history) :
    Shut id (s.enter id' t args).2.fleet.history := by
  by_cases hne : id' = id
  · subst hne
    by_cases hrole : s.context.role = .submitter
    · cases hx : (s.present id' t).1 with
      | ok x => exact shut_of_not_panicked (not_panicked_of_present hs ht hrole hx args)
      | error fault =>
        have hpresent : s.present id' t = (.error fault, (s.present id' t).2) := Prod.ext hx rfl
        have hended : (s.enter id' t args).2 = (s.present id' t).2 := by
          rw [enter, approach, hpresent]
        exact hended.symm ▸ present_shut hs.locksTell ht h
    · obtain ⟨bodies, hbodies, hnone⟩ :=
        ((enter_moves ht args).onlyRunsBodies hrole).asksEngine
      rw [hbodies]
      refine h.append ?_
      intro x hx hid
      cases x with
      | body id role => cases hid
      | register engine o d answer => cases hnone _ hx
      | submit engine o d schema args => cases hnone _ hx
  · exact enter_shut_of_ne ht hne args h

theorem run_shut {callTask : String → Args → Session → Except Fault Value × Session}
    (hmoves : ∀ name args s, Moves s (callTask name args s).2)
    (hcall : ∀ name args s, ({} : Session).Reaches s → Shut id s.fleet.history →
      Shut id (callTask name args s).2.fleet.history) (p : Program)
    (hs : ({} : Session).Reaches s) (h : Shut id s.fleet.history) :
    Shut id (p.run callTask s).2.fleet.history := by
  induction p generalizing s with
  | done r => exact h
  | call task args next ih =>
    have hreaches := hs.moves (hmoves task args s)
    have hshut := hcall task args s hs h
    rw [Program.run]
    generalize callTask task args s = answer at hreaches hshut ⊢
    obtain ⟨fault | v, s'⟩ := answer
    · cases fault with
      | error e => exact ih _ hreaches hshut
      | panic text => exact hshut
      | tooDeep => exact hshut
    · exact ih _ hreaches hshut

/-- A call asks no engine on account of a task whose hand-over has panicked. -/
theorem callWithin_shut (depth : Nat) (id' : TaskId) (args : Args)
    (hs : ({} : Session).Reaches s) (h : Shut id s.fleet.history) :
    Shut id (callWithin depth id' args s).2.fleet.history := by
  induction depth generalizing id' args s with
  | zero => exact h
  | succ depth ih =>
    rw [callWithin]
    split
    · exact h
    · next t ht =>
      have hreaches := hs.moves (enter_moves ht args)
      have hshut := enter_shut hs ht args h
      rw [callInScope_eq_enter]
      generalize s.enter id' t args = entered at hreaches hshut ⊢
      obtain ⟨result | program, s'⟩ := entered
      · exact hshut
      · refine run_shut (callNamed_moves (callWithin_moves depth)) ?_ program hreaches hshut
        intro name args s hs h
        unfold callNamed
        split
        · exact h
        · exact ih _ args hs h

/-- **After the panic of its own hand-over no engine is asked on account of a task.** -/
theorem performAll_shut (commands : List Command) (id : TaskId) :
    Shut id (({} : Session).performAll commands).fleet.history := by
  induction commands using List.reverseRecOn with
  | nil => exact shut_of_not_panicked fun ⟨e, he, _⟩ => by cases he
  | append_singleton commands c ih =>
    have hs : ({} : Session).Reaches (({} : Session).performAll commands) :=
      Reaches.refl.performAll commands
    rw [performAll_append]
    by_cases hc : ∃ id args depth, c = .call id args depth
    · obtain ⟨id', args, depth, rfl⟩ := hc
      exact callWithin_shut depth id' args hs ih
    · have hprep := perform_prepares (s := ({} : Session).performAll commands)
        fun id args depth h => hc ⟨id, args, depth, h⟩
      exact hprep.history.symm ▸ ih

end Session
end TaskStack
