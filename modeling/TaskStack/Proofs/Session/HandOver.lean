import TaskStack.Session.Call

/-!
# Handing over

A descriptor is handed over once. The answer of the engine decides what is remembered: that it was
taken, that it never will be after a panic, or nothing after a refusal, so that the next call tries
again.

* `Session.ensureRegistered_cases`: the descriptor of a task.
* `Passage.ensureDerived_of_new`: the descriptor of a derived task.
-/

namespace TaskStack

/-- What is remembered about a task when its descriptor was handed over. -/
def Registration.after (r : Registered) : Except Fault Unit → Registration
  | .ok () => .done r
  | .error (.panic _) => .poisoned
  | .error _ => .pending

/-- What is remembered about a layer when a derived descriptor was handed over. -/
def Derived.after (x : Derived) (param : String) (d : TaskDescriptor) : Except Fault Unit → Derived
  | .ok () => { x with descriptors := x.descriptors.insert param d }
  | .error (.panic _) => { x with poisoned := true }
  | .error _ => x

namespace Derived

/-- Derived tasks of one task are told apart by their parameters. -/
theorem signature_injective (info : TaskInfo) {p q : String}
    (h : signature info p = signature info q) : p = q := by
  have hlist := congrArg String.toList h
  simp only [signature, String.toList_append, List.append_cancel_right_eq,
    List.append_cancel_left_eq] at hlist
  exact String.toList_inj.1 hlist

/-- A derived task is told apart from the task itself. -/
theorem signature_ne_qualifiedName (info : TaskInfo) (p : String) :
    signature info p ≠ info.qualifiedName := by
  intro h
  have hlength := congrArg (fun s => s.toList.length) h
  simp [signature] at hlength

/-- The descriptor of a derived task keeps the contract. -/
theorem validate_descriptor (info : TaskInfo) (param : String) :
    (descriptor info param).validate = .ok () := by
  have hblank : Text.allBlank (signature info param) = false :=
    Text.allBlank_eq_false (c := '.') (by simp [signature]) (by decide)
  have hbreach : (descriptor info param).breach? = none := by
    simp only [TaskDescriptor.breach?, descriptor, hblank]
    rfl
  rw [TaskDescriptor.validate, hbreach]

end Derived

namespace Session

/-! ## Tasks -/

/-- The session when an engine was handed the descriptor of a task. -/
def handOver (s : Session) (engine : EngineId) (id : TaskId) (t : Task) (r : Registered) :
    Session :=
  let asked := s.fleet.register engine (.task id) r.descriptor
  { s with fleet := asked.2 }.setTask id { t with registration := .after r asked.1 }

/-- The session when an engine was handed the descriptor of a derived task. -/
def handOverDerived (s : Session) (engine : EngineId) (id : TaskId) (t : Task) (index : Nat)
    (param : String) : Session :=
  let d := Derived.descriptor t.declaration.info param
  let asked := s.fleet.register engine (.derived id index param) d
  { s with fleet := asked.2 }.setTask id
    (t.setDerived index ((t.derivedAt index).after param d asked.1))

variable {s : Session} {id : TaskId} {t : Task}

theorem task?_handOver (ht : s.task? id = some t) (engine : EngineId) (r : Registered) :
    (s.handOver engine id t r).task? id =
      some { t with
        registration := .after r (s.fleet.register engine (.task id) r.descriptor).1 } :=
  task?_setTask_self (s := { s with fleet := _ }) ht _

/-- A hand-over that asks the engine. -/
theorem ensureRegistered_of_pending (ht : s.task? id = some t) (hp : t.registration = .pending)
    {scope : Scope} {engine : EngineId} (he : scope.engine = some engine) {r : Registered}
    (hd : Declaration.describe t.declaration.info t.declaration.layers = .ok r) :
    s.ensureRegistered id t scope =
      ((s.fleet.register engine (.task id) r.descriptor).1.map fun _ => r.descriptor,
        s.handOver engine id t r) := by
  simp only [ensureRegistered, hp, he, hd, handOver]
  rcases s.fleet.register engine (.task id) r.descriptor with ⟨answer, fleet⟩
  cases answer with
  | ok u => rfl
  | error fault =>
    have hsame : { s with fleet }.setTask id { t with registration := .pending } =
        { s with fleet } := by
      rw [← hp]
      exact setTask_eq_self (s := { s with fleet }) ht
    cases fault with
    | panic text => rfl
    | error e => exact Prod.ext rfl hsame.symm
    | tooDeep => exact Prod.ext rfl hsame.symm

/-- **What a hand-over can do.** It fails before it asks, finds the descriptor remembered, or asks
the engine. -/
theorem ensureRegistered_cases (ht : s.task? id = some t) (scope : Scope) :
    (∃ fault, s.ensureRegistered id t scope = (.error fault, s) ∧
      (fault = poisonedRegistration ∨ fault = .error (.handoff .noEngine) ∨
        ∃ e, Declaration.describe t.declaration.info t.declaration.layers = .error e ∧
          fault = .error e)) ∨
    (∃ r, t.registration = .done r ∧ s.ensureRegistered id t scope = (.ok r.descriptor, s)) ∨
    ∃ engine r, t.registration = .pending ∧ scope.engine = some engine ∧
      Declaration.describe t.declaration.info t.declaration.layers = .ok r ∧
      s.ensureRegistered id t scope =
        ((s.fleet.register engine (.task id) r.descriptor).1.map fun _ => r.descriptor,
          s.handOver engine id t r) := by
  cases hreg : t.registration with
  | poisoned =>
    refine .inl ⟨_, ?_, .inl rfl⟩
    simp only [ensureRegistered, hreg]
  | done r =>
    refine .inr (.inl ⟨r, rfl, ?_⟩)
    simp only [ensureRegistered, hreg]
  | pending =>
    cases he : scope.engine with
    | none =>
      refine .inl ⟨_, ?_, .inr (.inl rfl)⟩
      simp only [ensureRegistered, hreg, he]
    | some engine =>
      cases hd : Declaration.describe t.declaration.info t.declaration.layers with
      | error e =>
        refine .inl ⟨_, ?_, .inr (.inr ⟨e, rfl, rfl⟩)⟩
        simp only [ensureRegistered, hreg, he, hd]
      | ok r =>
        exact .inr (.inr ⟨engine, r, rfl, rfl, rfl, ensureRegistered_of_pending ht hreg he hd⟩)

/-- A refusal leaves the task as it was. -/
theorem handOver_of_refused (ht : s.task? id = some t) (hp : t.registration = .pending)
    {engine : EngineId} {r : Registered} {e : TaskError}
    (h : (s.fleet.register engine (.task id) r.descriptor).1 = .error (.error e)) :
    s.handOver engine id t r =
      { s with fleet := (s.fleet.register engine (.task id) r.descriptor).2 } := by
  have hsame : { t with registration := .after r (.error (.error e)) } = t := by
    show { t with registration := .pending } = t
    rw [← hp]
  rw [handOver, h, hsame]
  exact setTask_eq_self (s := { s with fleet := _ }) ht

end Session

namespace Passage

/-! ## Derived tasks -/

/-- A hand-over of a derived descriptor that asks the engine. -/
theorem ensureDerived_of_new (p : Passage) (engine : EngineId) {param : String}
    {x : Passing} (hp : x.derived.poisoned = false)
    (hd : x.derived.descriptors.get? param = none) :
    p.ensureDerived engine param x =
      let d := Derived.descriptor p.info param
      let asked := x.fleet.register engine (p.origin param) d
      (asked.1.map fun _ => d,
        { x with fleet := asked.2, derived := x.derived.after param d asked.1 }) := by
  rw [ensureDerived, if_neg (by simp [hp])]
  simp only [hd]
  rcases x.fleet.register engine (p.origin param) (Derived.descriptor p.info param) with
    ⟨answer, fleet⟩
  cases answer with
  | ok u => rfl
  | error fault => cases fault <;> rfl

end Passage
end TaskStack
