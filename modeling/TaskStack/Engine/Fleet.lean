import TaskStack.Engine.Basic
import TaskStack.Role

/-!
# Engines and what they were asked

All engines of a process, each under its number, and the history of what happened to them: every
descriptor and every call they were handed and every run of a task body, the latest first.
-/

namespace TaskStack

/-- Where an engine stands among the engines of the process. -/
abbrev EngineId := Nat

/-- Where a declared task stands among the declared tasks of the process. -/
abbrev TaskId := Nat

/-- On whose account an engine is asked: a task for itself, a transformation layer of a task for one
of its parameters, or somebody else. -/
inductive Origin where
  | task (id : TaskId)
  | derived (id : TaskId) (layer : Nat) (param : String)
  | other
deriving DecidableEq, Repr

inductive Event where
  | register (engine : EngineId) (origin : Origin) (descriptor : TaskDescriptor)
    (answer : Except Fault Unit)
  | submit (engine : EngineId) (origin : Origin) (descriptor : TaskDescriptor) (schema : Schema)
    (args : Args)
  | body (task : TaskId) (role : Role)

structure Fleet where
  engines : List Engine := []
  history : List Event := []

namespace Fleet

instance : Inhabited Fleet := ⟨{}⟩

/-- Adds an engine and gives its number. -/
def add (f : Fleet) (e : Engine) : EngineId × Fleet :=
  (f.engines.length, { f with engines := f.engines ++ [e] })

def log (f : Fleet) (e : Event) : Fleet := { f with history := e :: f.history }

def setEngine (f : Fleet) (id : EngineId) (e : Engine) : Fleet :=
  { f with engines := f.engines.set id e }

/-- Hands a descriptor to an engine. -/
def register (f : Fleet) (id : EngineId) (origin : Origin) (d : TaskDescriptor) :
    Except Fault Unit × Fleet :=
  match f.engines[id]? with
  | none => (.error (.error (.handoff .noEngine)), f)
  | some e =>
    let (answer, e) := e.register d
    (answer, (f.setEngine id e).log (.register id origin d answer))

/-- Submits a call to an engine. -/
def submit (f : Fleet) (id : EngineId) (origin : Origin) (d : TaskDescriptor) (schema : Schema)
    (args : Args) : Admission × Fleet :=
  match f.engines[id]? with
  | none => (.settled (.error (.error (.handoff .noEngine))), f)
  | some e =>
    let (admission, e) := e.submit d.canonicalSignature args
    (admission, (f.setEngine id e).log (.submit id origin d schema args))

/-- Handing over a descriptor is noted, unless there is no such engine. -/
theorem register_cases (f : Fleet) (id : EngineId) (origin : Origin) (d : TaskDescriptor) :
    (f.engines[id]? = none ∧ f.register id origin d = (.error (.error (.handoff .noEngine)), f)) ∨
      ∃ answer engines, f.register id origin d =
        (answer, ⟨engines, .register id origin d answer :: f.history⟩) := by
  unfold register
  split
  · next h => exact .inl ⟨h, rfl⟩
  · exact .inr ⟨_, _, rfl⟩

theorem submit_cases (f : Fleet) (id : EngineId) (origin : Origin) (d : TaskDescriptor)
    (schema : Schema) (args : Args) :
    (f.engines[id]? = none ∧
        f.submit id origin d schema args = (.settled (.error (.error (.handoff .noEngine))), f)) ∨
      ∃ admission engines, f.submit id origin d schema args =
        (admission, ⟨engines, .submit id origin d schema args :: f.history⟩) := by
  unfold submit
  split
  · next h => exact .inl ⟨h, rfl⟩
  · exact .inr ⟨_, _, rfl⟩

theorem history_suffix_register (f : Fleet) (engine : EngineId) (origin : Origin)
    (d : TaskDescriptor) : f.history <:+ (f.register engine origin d).2.history := by
  obtain ⟨-, h⟩ | ⟨answer, engines, h⟩ := f.register_cases engine origin d
  · exact h.symm ▸ List.suffix_rfl
  · exact h.symm ▸ List.suffix_cons _ _

theorem history_suffix_submit (f : Fleet) (engine : EngineId) (origin : Origin)
    (d : TaskDescriptor) (schema : Schema) (args : Args) :
    f.history <:+ (f.submit engine origin d schema args).2.history := by
  obtain ⟨-, h⟩ | ⟨admission, engines, h⟩ := f.submit_cases engine origin d schema args
  · exact h.symm ▸ List.suffix_rfl
  · exact h.symm ▸ List.suffix_cons _ _

end Fleet
end TaskStack
