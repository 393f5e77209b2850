import TaskStack.Call.Marker
import TaskStack.Call.Parameter
import TaskStack.Transform

/-!
# Arguments of a call

A call passes values by position and by name, and may bring transformations that stand in for the
declared ones. `locate` finds where the value of a parameter comes from and `replace` writes at that
place; a task body sees the arguments through `Bound` alone.
-/

namespace TaskStack

/-- Where the value of a parameter comes from in a call. -/
inductive Site where
  | keyword
  | positional (index : Nat)
  | default
deriving DecidableEq, Repr

structure Args where
  positional : List Value := []
  named : Options := ∅
  transforms : List Transform := []

namespace Args

instance : Inhabited Args := ⟨{}⟩

def ofPositional (values : List Value) : Args := { positional := values }

def addPositional (a : Args) (v : Value) : Args := { a with positional := a.positional ++ [v] }

def setNamed (a : Args) (name : String) (v : Value) : Args :=
  { a with named := a.named.insert name v }

/-- Where a declared parameter gets its value from, and the value: by name, by position, or its
default, which is `null` if it has none. -/
def locate (a : Args) (s : Schema) (name : String) : Option (Site × Value) :=
  match s.position? name with
  | none => none
  | some index =>
    match a.named.get? name with
    | some v => some (.keyword, v)
    | none =>
      match a.positional[index]? with
      | some v => some (.positional index, v)
      | none => some (.default, ((s.get? name).bind (·.default)).getD .null)

/-- Writes a value at the place where a parameter was found. What came from a default, or from a
position that is not there, becomes an argument passed by name. -/
def replace (a : Args) (site : Site) (name : String) (v : Value) : Args :=
  match site with
  | .positional index =>
    if index < a.positional.length then { a with positional := a.positional.set index v }
    else a.setNamed name v
  | .keyword | .default => a.setNamed name v

/-- The arguments that are meant for the body. -/
def withoutMarkers (a : Args) : Args :=
  { a with named := a.named.filterKeys (fun k => !Marker.isMarker k), transforms := [] }

/-- The arguments that are meant for the engine. -/
def markers (a : Args) : Options := a.named.filterKeys Marker.isMarker

def inspect (a : Args) : String :=
  Inspect.record "Args"
    [("positional", Inspect.list (Inspect.values a.positional)),
      ("named", Inspect.options a.named), ("transforms", toString a.transforms.length)]

end Args

/-- What a task body sees of its arguments: the value that each name leads to. -/
structure Bound where
  get? : String → Option Value

namespace Bound

/-- Arguments seen through the declared parameters: a name that is no marker leads to the argument
of that name; any declared name leads to its position and else to its default. -/
def of (s : Schema) (a : Args) : Bound where
  get? name :=
    match (if Marker.isMarker name then none else a.named.get? name) with
    | some v => some v
    | none =>
      match s.position? name with
      | none => none
      | some index =>
        match a.positional[index]? with
        | some v => some v
        | none => (s.get? name).bind (·.default)

def require (b : Bound) (name : String) : Except Abort Value :=
  match b.get? name with
  | some v => .ok v
  | none => .error (.failure ("falta el argumento '" ++ name ++ "'"))

def int64 (b : Bound) (name : String) : Except Abort Int64 := do
  let v ← b.require name
  match v.int64? with
  | some n => .ok n
  | none => .error (.failure ("el argumento '" ++ name ++ "' no es entero"))

end Bound
end TaskStack
