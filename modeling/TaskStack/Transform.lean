import TaskStack.Error

/-!
# Transformations

A transformation replaces the value of one parameter by what its function makes of it. A workflow
transformation is applied in this process; any other is a task of its own that the engine runs.
-/

namespace TaskStack

abbrev TransformFunction := Value → Options → Except Abort Value

structure Transform where
  param : String
  function : TransformFunction
  options : Options := ∅
  workflow : Bool := false

namespace Transform

/-- The option that says whether a transformation is applied in process. -/
def workflowOption : String := "is_workflow"

/-- Values that count as yes. -/
def isYes : Value → Bool
  | .bool b => b
  | .string s => s = "True" ∨ s = "true" ∨ s = "1"
  | .number (.integer n) => n.val = 1
  | _ => false

/-- Gives a transformation its options; the one about the workflow is taken out of them. -/
def withOptions (t : Transform) (options : Options) : Transform :=
  { t with
    workflow := ((options.get? workflowOption).map isYes).getD t.workflow
    options := options.erase workflowOption }

def asWorkflow (t : Transform) : Transform := { t with workflow := true }

def apply (t : Transform) (v : Value) : Except Abort Value := t.function v t.options

def inspect (t : Transform) : String :=
  Inspect.record "TransformSpec"
    [("param", Inspect.string t.param), ("options", Inspect.options t.options),
      ("workflow", Inspect.bool t.workflow)]

end Transform
end TaskStack
