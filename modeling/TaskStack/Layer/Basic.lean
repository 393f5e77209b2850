import TaskStack.Call.Region
import TaskStack.Layer.Constraint
import TaskStack.Layer.Mpi
import TaskStack.Layer.PlainTask

/-!
# Layers

The layers that can be stacked on a task. Each has a name, may refuse the task it is put on, writes
its part of the descriptor, may finish the descriptor when all layers have had their turn, and says
which marks the arguments carry below it. A transformation layer and a layer from outside may also
do something to a call before that.
-/

namespace TaskStack

/-- A layer from outside this library. -/
structure CustomLayer where
  name : String
  isTask : Bool := false
  validate : TaskInfo → Except ConfigurationError Unit := fun _ => .ok ()
  configure : TaskInfo → DescriptorSlot → Except TaskError Unit × DescriptorSlot
  complete : TaskInfo → DescriptorBuilder → Except TaskError Unit × DescriptorBuilder :=
    fun _ b => (.ok (), b)
  beforeCall : TaskInfo → Role → Args → Except Fault Unit × Args := fun _ _ a => (.ok (), a)
  prepend : Option Bool := none
  markers : List (String × Value) := []

inductive Layer where
  | task (t : PlainTask)
  | constraint (c : ResourceConstraint)
  | mpi (m : MpiParallel)
  | transformation (specs : List Transform)
  | custom (c : CustomLayer)

namespace Layer

def transformationName : String := "@data_transformation"

def name : Layer → String
  | .task _ => PlainTask.name
  | .constraint _ => ResourceConstraint.name
  | .mpi _ => MpiParallel.name
  | .transformation _ => transformationName
  | .custom c => c.name

/-- Tells the base layer, of which every task has one. -/
def isTask : Layer → Bool
  | .task _ => true
  | .custom c => c.isTask
  | _ => false

/-- Checks the layer against the task it is put on. -/
def validate (l : Layer) (info : TaskInfo) : Except ConfigurationError Unit :=
  match l with
  | .mpi m => m.validate info
  | .custom c => c.validate info
  | _ => .ok ()

def conflicting {σ : Type} (r : Except DescriptorConflict Unit × σ) : Except TaskError Unit × σ :=
  (r.1.mapError .conflict, r.2)

/-- Writes the layer's part of the descriptor; what was written before a refusal stays. -/
def configure (l : Layer) (info : TaskInfo) (slot : DescriptorSlot) :
    Except TaskError Unit × DescriptorSlot :=
  match l with
  | .task t => conflicting (slot.configure l.name (t.writes info))
  | .constraint c => conflicting (slot.configure l.name [.constraints c.constraints])
  | .mpi m => conflicting (slot.configure l.name m.writes)
  | .transformation _ => (.ok (), slot)
  | .custom c => c.configure info slot

/-- Finishes the descriptor once every layer has configured. -/
def complete (l : Layer) (info : TaskInfo) (b : DescriptorBuilder) :
    Except TaskError Unit × DescriptorBuilder :=
  match l with
  | .task _ => conflicting (b.writeAll l.name (PlainTask.completion info b))
  | .custom c => c.complete info b
  | _ => (.ok (), b)

/-- What the layer says about marks on string arguments, if anything. -/
def prepend : Layer → Option Bool
  | .task _ => none
  | .constraint _ => some true
  | .mpi m => some m.prependStrings
  | .transformation _ => some true
  | .custom c => c.prepend

def markers : Layer → List (String × Value)
  | .mpi m => m.markers
  | .custom c => c.markers
  | _ => []

/-- The arguments below the layer. -/
def mark (l : Layer) (a : Args) : Args := a.marked l.prepend l.markers

/-- How a transformation layer shows itself. -/
def inspectTransformation (specs : List Transform) : String :=
  Inspect.record "DataTransformation" [("specs", Inspect.list (specs.map Transform.inspect))]

end Layer

/-- A layer that writes fixed fields, while the task is configured and when it is completed. -/
def CustomLayer.ofWrites (name : String) (configure complete : List FieldWrite) : CustomLayer where
  name := name
  configure _ slot := Layer.conflicting (slot.configure name configure)
  complete _ b := Layer.conflicting (b.writeAll name complete)

end TaskStack
