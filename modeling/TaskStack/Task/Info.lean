import TaskStack.Call.Parameter

/-!
# The identity of a task

A task is known by the module and the name of its function; together they are its canonical
signature.
-/

namespace TaskStack

structure TaskInfo where
  module : String
  name : String
  schema : Schema := {}
deriving Repr, Inhabited

namespace TaskInfo

/-- The canonical signature of a task. -/
def qualifiedName (info : TaskInfo) : String := info.module ++ "." ++ info.name

def inspect (info : TaskInfo) : String :=
  Inspect.record "TaskInfo"
    [("module", Inspect.string info.module), ("name", Inspect.string info.name),
      ("schema", info.schema.inspect)]

end TaskInfo
end TaskStack
