import TaskStack.Session.Context
import TaskStack.Session.Substitution

/-!
# Sessions

A session is everything that a process remembers between calls: its role, its engines with their
history, and of every declared task whether its descriptor was handed over. Tasks are numbered as
they are declared; a name leads to the task declared last under it.
-/

namespace TaskStack

/-- Whether the descriptor of a task was handed over. A hand-over that panicked leaves it poisoned
for good. -/
inductive Registration where
  | pending
  | done (r : Registered)
  | poisoned
deriving DecidableEq, Repr

def Registration.registered? : Registration → Option Registered
  | .done r => some r
  | _ => none

/-- A declared task with what is remembered about it and, in their order, about its layers. -/
structure Task where
  declaration : Declaration
  registration : Registration := .pending
  derived : List Derived
  derived_length : derived.length = declaration.layers.length

namespace Task

/-- A new task remembers nothing about its layers. -/
def new (d : Declaration) : Task where
  declaration := d
  derived := d.layers.map fun _ => {}
  derived_length := List.length_map _

/-- What is remembered about the layer at a place. -/
def derivedAt (t : Task) (index : Nat) : Derived := t.derived.getD index {}

/-- Changes what is remembered about the layer at a place. -/
def setDerived (t : Task) (index : Nat) (x : Derived) : Task :=
  { t with derived := t.derived.set index x, derived_length := by simp [t.derived_length] }

@[simp] theorem derivedAt_new (d : Declaration) (index : Nat) : (new d).derivedAt index = {} := by
  simp only [derivedAt, new, List.getD_eq_getElem?_getD, List.getElem?_map]
  cases d.layers[index]? <;> rfl

theorem derivedAt_setDerived_self (t : Task) {index : Nat} (x : Derived)
    (h : index < t.declaration.layers.length) : (t.setDerived index x).derivedAt index = x := by
  simp [derivedAt, setDerived, List.getD_eq_getElem?_getD, t.derived_length, h]

theorem derivedAt_setDerived_of_ne (t : Task) {index index' : Nat} (x : Derived)
    (h : index ≠ index') : (t.setDerived index x).derivedAt index' = t.derivedAt index' := by
  simp [derivedAt, setDerived, List.getD_eq_getElem?_getD, h]

@[simp] theorem setDerived_setDerived (t : Task) (index : Nat) (x y : Derived) :
    (t.setDerived index x).setDerived index y = t.setDerived index y := by
  simp [setDerived]

@[simp] theorem setDerived_derivedAt (t : Task) (index : Nat) :
    t.setDerived index (t.derivedAt index) = t := by
  obtain ⟨_, _, derived, _⟩ := t
  by_cases h : index < derived.length
  · simp [setDerived, derivedAt, h]
  · simp [setDerived, List.set_eq_of_length_le (Nat.le_of_not_lt h)]

end Task

structure Session where
  context : Context := {}
  fleet : Fleet := {}
  tasks : List Task := []
  names : Dict TaskId := ∅

namespace Session

instance : Inhabited Session := ⟨{}⟩

def task? (s : Session) (id : TaskId) : Option Task := s.tasks[id]?

def setTask (s : Session) (id : TaskId) (t : Task) : Session :=
  { s with tasks := s.tasks.set id t }

/-- The role and the engine that a call beginning now will have. -/
def scope (s : Session) : Scope := ⟨s.context.role, s.context.engine⟩

theorem task?_setTask_self {s : Session} {id : TaskId} {t : Task} (h : s.task? id = some t)
    (t' : Task) : (s.setTask id t').task? id = some t' := by
  obtain ⟨hlt, -⟩ := List.getElem?_eq_some_iff.1 h
  simp [task?, setTask, hlt]

theorem task?_setTask_of_ne (s : Session) {id id' : TaskId} (t : Task) (h : id ≠ id') :
    (s.setTask id t).task? id' = s.task? id' := by
  simp [task?, setTask, h]

theorem setTask_eq_self {s : Session} {id : TaskId} {t : Task} (h : s.task? id = some t) :
    s.setTask id t = s := by
  obtain ⟨hlt, rfl⟩ := List.getElem?_eq_some_iff.1 h
  simp [setTask]

@[simp] theorem setTask_setTask (s : Session) (id : TaskId) (t t' : Task) :
    (s.setTask id t).setTask id t' = s.setTask id t' := by
  simp [setTask]

end Session
end TaskStack
