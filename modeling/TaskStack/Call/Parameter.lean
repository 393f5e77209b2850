import TaskStack.Inspect

/-!
# Declared parameters

The parameters of a task in the order of its declaration. A name that is declared twice means the
first of its declarations.
-/

namespace TaskStack

structure Parameter where
  name : String
  default : Option Value := none
deriving Repr

/-- The parameters of a task. -/
structure Schema where
  params : List Parameter := []
deriving Repr, Inhabited

namespace Schema

def position? (s : Schema) (name : String) : Option Nat := s.params.findIdx? (·.name = name)

def get? (s : Schema) (name : String) : Option Parameter := s.params.find? (·.name = name)

def contains (s : Schema) (name : String) : Bool := (s.position? name).isSome

def names (s : Schema) : List String := s.params.map (·.name)

def inspect (s : Schema) : String :=
  Inspect.record "ParameterSchema"
    [("params", Inspect.list (s.params.map fun p =>
      Inspect.record "Parameter"
        [("name", Inspect.string p.name),
          ("default", Inspect.option (p.default.map Inspect.value))]))]

end Schema
end TaskStack
