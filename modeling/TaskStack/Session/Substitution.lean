import TaskStack.Engine.Fleet
import TaskStack.Task.Declaration

/-!
# Substitution of arguments

What a transformation layer does to a call in a submitter: it goes through its transformations, or
through those that the call brought along, and replaces the value of each target. A workflow
transformation is applied here. For any other the layer hands the engine the descriptor of a derived
task, once for each parameter, and submits the value to it.

- `Passage.beforeCall`: the whole step
- `Derived`: the derived descriptors that a layer has handed over
-/

namespace TaskStack

/-- The role and the engine of a call, as they were when it began. -/
structure Scope where
  role : Role
  engine : Option EngineId := none
deriving DecidableEq, Repr

/-- The derived descriptors that a layer has handed over, by parameter. A hand-over that panicked
leaves it poisoned. -/
structure Derived where
  poisoned : Bool := false
  descriptors : Dict TaskDescriptor := ∅
deriving DecidableEq, Repr, Inhabited

namespace Derived

def signature (info : TaskInfo) (param : String) : String :=
  info.qualifiedName ++ "." ++ param ++ "_transform"

/-- The descriptor of the task that transforms a parameter. -/
def descriptor (info : TaskInfo) (param : String) : TaskDescriptor :=
  { canonicalSignature := signature info param
    implementationType := some .plain
    implementationSignature := some (signature info param)
    implementationArgs := some [info.qualifiedName, param ++ "_transform"]
    io := some false }

/-- The one parameter of a derived task. -/
def schema : Schema := { params := [{ name := "data" }] }

/-- The body of a derived task. -/
def body (t : Transform) (b : Bound) : Except Abort Value := do t.apply (← b.require "data")

end Derived

/-- A call on its way through a layer: which task and layer it is, and its scope. -/
structure Passage where
  info : TaskInfo
  scope : Scope
  task : TaskId := 0
  layer : Nat := 0

/-- What a call on its way through a transformation layer can change. -/
structure Passing where
  args : Args
  derived : Derived
  fleet : Fleet

namespace Passage

def origin (p : Passage) (param : String) : Origin := .derived p.task p.layer param

/-- Makes sure that the derived descriptor of a parameter is handed over, and gives it. -/
def ensureDerived (p : Passage) (engine : EngineId) (param : String) (s : Passing) :
    Except Fault TaskDescriptor × Passing :=
  if s.derived.poisoned then
    (.error (.error (.handoff (.poisoned "transformaciones derivadas"))), s)
  else match s.derived.descriptors.get? param with
    | some d => (.ok d, s)
    | none =>
      let d := Derived.descriptor p.info param
      let (answer, fleet) := s.fleet.register engine (p.origin param) d
      match answer with
      | .ok () =>
        let descriptors := s.derived.descriptors.insert param d
        (.ok d, { s with fleet, derived := { s.derived with descriptors } })
      | .error (.panic text) =>
        (.error (.panic text), { s with fleet, derived := { s.derived with poisoned := true } })
      | .error fault => (.error fault, { s with fleet })

/-- Lets the engine transform a value in a derived task. -/
def submitDerived (p : Passage) (t : Transform) (v : Value) (s : Passing) :
    Except Fault Value × Passing :=
  match p.scope.engine with
  | none => (.error (.error (.handoff .noEngine)), s)
  | some engine =>
    match p.ensureDerived engine t.param s with
    | (.error fault, s) => (.error fault, s)
    | (.ok d, s) =>
      let args := Args.ofPositional [v]
      let (admission, fleet) :=
        s.fleet.submit engine (p.origin t.param) d Derived.schema args
      let result := match admission with
        | .settled result => result
        | .run =>
          (Derived.body t (Bound.of Derived.schema args.withoutMarkers)).mapError Abort.fault
      (result, { s with fleet })

/-- What a transformation makes of a value. -/
def transform (p : Passage) (t : Transform) (v : Value) (s : Passing) :
    Except Fault Value × Passing :=
  if t.workflow then ((t.apply v).mapError Abort.fault, s) else p.submitDerived t v s

/-- Goes through transformations, each on the arguments that the one before left, up to the first
that fails. -/
def substitute (p : Passage) : List Transform → Passing → Except Fault Unit × Passing
  | [], s => (.ok (), s)
  | t :: rest, s =>
    match s.args.locate p.info.schema t.param with
    | none =>
      (.error (.error (.definition (.unknownParameter t.param p.info.qualifiedName))), s)
    | some (site, v) =>
      match p.transform t v s with
      | (.error fault, s) => (.error fault, s)
      | (.ok w, s) => p.substitute rest { s with args := s.args.replace site t.param w }

/-- Passes a call through a transformation layer. The transformations that the call brought along
are used up, whatever the role; in a submitter they stand in for those of the layer. -/
def beforeCall (p : Passage) (specs : List Transform) (s : Passing) :
    Except Fault Unit × Passing :=
  let brought := s.args.transforms
  let s := { s with args := { s.args with transforms := [] } }
  if p.scope.role ≠ .submitter then (.ok (), s)
  else
    let inForce := if brought.isEmpty then specs else brought
    if inForce.isEmpty then
      (.error (.error (.definition (.missingTransform p.info.qualifiedName))), s)
    else p.substitute inForce s

theorem beforeCall_of_submitter {p : Passage} (h : p.scope.role = .submitter)
    (specs : List Transform) (s : Passing) :
    p.beforeCall specs s =
      let inForce := if s.args.transforms.isEmpty then specs else s.args.transforms
      let s := { s with args := { s.args with transforms := [] } }
      if inForce.isEmpty then
        (.error (.error (.definition (.missingTransform p.info.qualifiedName))), s)
      else p.substitute inForce s :=
  if_neg (not_not_intro h)

theorem beforeCall_of_not_submitter {p : Passage} (h : p.scope.role ≠ .submitter)
    (specs : List Transform) (s : Passing) :
    p.beforeCall specs s = (.ok (), { s with args := { s.args with transforms := [] } }) :=
  if_pos h

end Passage
end TaskStack
