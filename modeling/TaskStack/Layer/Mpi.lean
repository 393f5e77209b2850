import TaskStack.Descriptor.Builder
import TaskStack.Call.Marker
import TaskStack.Layer.Options
import TaskStack.Task.Info

/-!
# Parallel runs

A layer that runs a task under a parallel runner: a program of its own when a binary is given, and
else the task's function. One parameter may be a collection that is dealt out in blocks. The engine
gets ten texts, with fixed marks for what was not given.
-/

namespace TaskStack

/-- How many processes a run asks for: a number, or a reference that the engine resolves. -/
inductive Processes where
  | count (n : UInt32)
  | dynamic (reference : String)
deriving DecidableEq, Repr

namespace Processes

def text : Processes → String
  | .count n => toString n
  | .dynamic s => s

def value : Processes → Value
  | .count n => .int (.ofNat n.toNat)
  | .dynamic s => .string s

end Processes

namespace MpiParallel

def name : String := "@mpi"

def layoutEnding : List Char := "_layout".toList

def rules : OptionRules :=
  { layer := name
    mandatory := ["runner"]
    supported := ["runner", "binary", "processes", "working_dir", "flags", "scale_by_cu",
      "fail_by_exit_value"]
    deprecated := [("computing_nodes", "processes"), ("computingNodes", "processes"),
      ("workingDir", "working_dir")] }

/-- The key of a layout: something, then the ending of layouts. -/
def isLayoutKey (key : String) : Bool :=
  layoutEnding.length < key.toList.length && layoutEnding.isSuffixOf key.toList

/-- Takes the ending of layouts off as often as it stands there. -/
def stripLayout (key : String) : String :=
  String.ofList (go key.toList.length key.toList.reverse).reverse
where
  go : Nat → List Char → List Char
    | 0, cs => cs
    | n + 1, cs =>
      if layoutEnding.reverse.isPrefixOf cs then go n (cs.drop layoutEnding.length) else cs

end MpiParallel

/-- How the collection that a parameter receives is dealt out in blocks. -/
structure CollectionLayout where
  param : String
  blockCount : Option Int64 := none
  blockLength : Option Int64 := none
  stride : Option Int64 := none
deriving DecidableEq, Repr

namespace CollectionLayout

/-- A layout; the length and distance of blocks need their number. -/
def make (param : String) (blockCount blockLength stride : Option Int64) :
    Except ConfigurationError CollectionLayout :=
  if blockCount.isNone && (blockLength.isSome || stride.isSome) then
    .error (MpiParallel.rules.invalid (param ++ "_layout")
      "block_length y stride requieren block_count")
  else .ok ⟨param, blockCount, blockLength, stride⟩

/-- An integer field that may be left out. -/
def int? (key : String) (fields : Dict Value) (field : String) :
    Except ConfigurationError (Option Int64) :=
  match fields.get? field with
  | none => .ok none
  | some v =>
    match v.int64? with
    | some n => .ok (some n)
    | none => .error (MpiParallel.rules.invalid key ("'" ++ field ++ "' debe ser entero"))

def fieldNames : List String := ["block_count", "block_length", "stride"]

def ofOption (key : String) (value : Value) : Except ConfigurationError CollectionLayout :=
  match value.dict? with
  | none => .error (MpiParallel.rules.invalid key "el layout debe ser un objeto")
  | some fields => do
    let blockCount ← int? key fields "block_count"
    let blockLength ← int? key fields "block_length"
    let stride ← int? key fields "stride"
    match fields.keys.find? (!fieldNames.contains ·) with
    | some unknown =>
      .error (MpiParallel.rules.invalid key ("campo desconocido '" ++ unknown ++ "'"))
    | none => make (MpiParallel.stripLayout key) blockCount blockLength stride

end CollectionLayout

/-- The arguments of a parallel implementation before they are written out. -/
structure MpiArgs where
  binary : Option String := none
  workingDir : Option String := none
  runner : String
  flags : Option String := none
  scaleByCu : String
  failByExitValue : String
  layout : Option CollectionLayout := none
deriving DecidableEq, Repr

namespace MpiArgs

/-- Stands for a text that was not given. -/
def unassigned : String := "[unassigned]"

/-- Stands for a number that was not given. -/
def unsetNumber : String := "-1"

def number (n : Option Int64) : String := (n.map toString).getD unsetNumber

/-- The ten arguments in the order of the engine. -/
def encode (a : MpiArgs) : List String :=
  let layout := a.layout.getD ⟨"", none, none, none⟩
  [a.binary.getD unassigned, a.workingDir.getD unassigned, a.runner, a.flags.getD unassigned,
    a.scaleByCu, a.failByExitValue, layout.param, number layout.blockCount,
    number layout.blockLength, number layout.stride]

end MpiArgs

structure MpiParallel where
  runner : String
  binary : Option String := none
  processes : Processes := .count 1
  workingDir : Option String := none
  flags : Option String := none
  scaleByCu : String := "false"
  failByExitValue : String := "false"
  layout : Option CollectionLayout := none
deriving DecidableEq, Repr

namespace MpiParallel

def processesOf (options : Options) : Except ConfigurationError Processes :=
  match options.get? "processes" with
  | none => .ok (.count 1)
  | some (.string s) => .ok (.dynamic s)
  | some (.number (.integer n)) =>
    if 1 ≤ n.val ∧ n.val < 0x100000000 then .ok (.count (.ofNat n.val.toNat))
    else .error (rules.invalid "processes" "debe ser un entero positivo")
  | some (.number _) => .error (rules.invalid "processes" "debe ser un entero positivo")
  | some _ => .error (rules.invalid "processes" "se esperaba un entero o un string")

/-- The layouts among the options, in the order of their keys. -/
def layoutsOf (options : Options) : Except ConfigurationError (List CollectionLayout) :=
  (options.entries.filter fun e => isLayoutKey e.1).mapM fun e => CollectionLayout.ofOption e.1 e.2

def ofOptions (options : Options) : Except ConfigurationError MpiParallel := do
  let options ← rules.check options isLayoutKey
  let runner ← match ← rules.string? options "runner" with
    | some r => .ok r
    | none => .error (rules.invalid "runner" "se esperaba un string")
  let processes ← processesOf options
  let layouts ← layoutsOf options
  if layouts.length > 1 then
    .error (.conflictingOptions name ("sólo se admite un layout de colección (" ++
      ", ".intercalate (layouts.map (·.param)) ++ ")"))
  else
    let binary ← rules.string? options "binary"
    let workingDir ← rules.string? options "working_dir"
    let flags ← rules.string? options "flags"
    let scaleByCu ← rules.flag options "scale_by_cu" "false"
    let failByExitValue ← rules.flag options "fail_by_exit_value" "false"
    .ok { runner, binary, processes, workingDir, flags, scaleByCu, failByExitValue,
          layout := layouts.head? }

def implementationType (m : MpiParallel) : ImplementationType :=
  if m.binary.isSome then .mpi else .pythonMpi

def implementationSignature (m : MpiParallel) : String :=
  match m.binary with
  | some binary => ImplementationType.mpi.name ++ "." ++ m.processes.text ++ "." ++ binary
  | none => ImplementationType.pythonMpi.name ++ "."

def implementationArgs (m : MpiParallel) : List String :=
  MpiArgs.encode
    { binary := m.binary
      workingDir := m.workingDir
      runner := m.runner
      flags := m.flags
      scaleByCu := m.scaleByCu
      failByExitValue := m.failByExitValue
      layout := m.layout }

/-- A layout has to name a parameter that the task declares. -/
def validate (m : MpiParallel) (info : TaskInfo) : Except ConfigurationError Unit :=
  match m.layout with
  | some layout =>
    if info.schema.contains layout.param then .ok ()
    else .error (.unknownParameter name layout.param info.qualifiedName)
  | none => .ok ()

/-- What the layer writes while the task is configured. -/
def writes (m : MpiParallel) : List FieldWrite :=
  [.implementationType m.implementationType, .implementationSignature m.implementationSignature,
    .implementationArgs m.implementationArgs]

/-- Strings get marks when the task's own function runs, and none for a program of its own. -/
def prependStrings (m : MpiParallel) : Bool := m.implementationType = .pythonMpi

def markers (m : MpiParallel) : List (String × Value) :=
  [(Marker.computingNodes, m.processes.value)]

end MpiParallel
end TaskStack
