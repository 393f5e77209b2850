import TaskStack.Layer.Basic
import TaskStack.Task.Program

/-!
# Declared tasks

A declaration is a task with its layers, the outermost first, and its body. It is accepted when it
has exactly one base layer and every layer accepts the task. Its descriptor is the work of all
layers: each configures it in turn, then each completes it, and then it is sealed.
-/

namespace TaskStack

structure Declaration where
  info : TaskInfo
  layers : List Layer
  body : Body

/-- A descriptor that was handed over, and the layer that made it. -/
structure Registered where
  descriptor : TaskDescriptor
  createdBy : String
deriving DecidableEq, Repr

namespace Declaration

/-- Checks the layers against the task, the outermost first. -/
def validateLayers (info : TaskInfo) : List Layer → Except ConfigurationError Unit
  | [] => .ok ()
  | l :: rest => do
    l.validate info
    validateLayers info rest

/-- Declares a task, if its layers allow it. -/
def build (info : TaskInfo) (layers : List Layer) (body : Body) :
    Except ConfigurationError Declaration :=
  match layers.countP Layer.isTask with
  | 0 => .error (.missingTaskLayer info.qualifiedName)
  | 1 => do
    validateLayers info layers
    .ok ⟨info, layers, body⟩
  | _ => .error (.duplicateTaskLayer info.qualifiedName)

def signature (d : Declaration) : String := d.info.qualifiedName

def layerNames (d : Declaration) : List String := d.layers.map Layer.name

/-- Lets the layers configure one slot, up to the first that fails. -/
def configureAll (info : TaskInfo) : List Layer → DescriptorSlot → Except TaskError DescriptorSlot
  | [], slot => .ok slot
  | l :: rest, slot =>
    match l.configure info slot with
    | (.ok (), slot) => configureAll info rest slot
    | (.error e, _) => .error e

/-- Lets the layers complete a descriptor, up to the first that fails. -/
def completeAll (info : TaskInfo) :
    List Layer → DescriptorBuilder → Except TaskError DescriptorBuilder
  | [], b => .ok b
  | l :: rest, b =>
    match l.complete info b with
    | (.ok (), b) => completeAll info rest b
    | (.error e, _) => .error e

/-- The descriptor that a stack of layers makes of a task. -/
def describe (info : TaskInfo) (layers : List Layer) : Except TaskError Registered := do
  let slot ← configureAll info layers {}
  match slot.builder with
  | none => .error (.definition .missingSignature)
  | some b =>
    let b ← completeAll info layers b
    match b.sealed with
    | .error e => .error (.definition e)
    | .ok descriptor => .ok ⟨descriptor, slot.createdBy.getD "?"⟩

def inspect (d : Declaration) (registered : Bool) : String :=
  Inspect.record "TaskDeclaration"
    [("info", d.info.inspect), ("layers", Inspect.list (d.layerNames.map Inspect.string)),
      ("registered", Inspect.bool registered)]

end Declaration
end TaskStack
