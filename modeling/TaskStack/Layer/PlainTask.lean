import TaskStack.Descriptor.Builder
import TaskStack.Layer.Options
import TaskStack.Task.Info

/-!
# The base layer

Every task has one base layer. It gives the descriptor its canonical signature, and when no other
layer chose an implementation it makes the task a plain one.
-/

namespace TaskStack

structure PlainTask where
  io : Bool := false
deriving DecidableEq, Repr

namespace PlainTask

def name : String := "@task"

def rules : OptionRules := { layer := name, supported := ["io"] }

def ofOptions (options : Options) : Except ConfigurationError PlainTask := do
  let options ← rules.check options (fun _ => false)
  match options.get? "io" with
  | none => .ok {}
  | some (.bool b) => .ok { io := b }
  | some _ => .error (rules.invalid "io" "se esperaba un booleano")

/-- What the layer writes while the task is configured. -/
def writes (t : PlainTask) (info : TaskInfo) : List FieldWrite :=
  [.canonicalSignature info.qualifiedName, .io t.io]

/-- What the layer writes once all layers have configured. -/
def completion (info : TaskInfo) (b : DescriptorBuilder) : List FieldWrite :=
  if b.implementationType.isSome then []
  else
    [.implementationType .plain, .implementationSignature info.qualifiedName,
      .implementationArgs [info.module, info.name]]

end PlainTask
end TaskStack
