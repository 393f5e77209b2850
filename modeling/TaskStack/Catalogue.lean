import TaskStack.Session.Command

/-!
# The demonstration catalogue

Three tasks that between them use every layer: `increment` asks for resources, `solve` runs in
parallel over the blocks of a grid, and `scale` squares its parameter on the way. Their bodies work
on 64-bit integers, and a result that does not fit ends them in a panic.
-/

namespace TaskStack.Catalogue

def module : String := "catalog"

def info (name : String) (params : List Parameter) : TaskInfo := ⟨module, name, ⟨params⟩⟩

/-- The sum of two integers of 64 bits. -/
def add (a b : Int64) : Except Abort Int64 :=
  match Int64.add? a b with
  | some n => .ok n
  | none => .error (.panic "attempt to add with overflow")

/-- The product of two integers of 64 bits. -/
def multiply (a b : Int64) : Except Abort Int64 :=
  match Int64.mul? a b with
  | some n => .ok n
  | none => .error (.panic "attempt to multiply with overflow")

/-- The sum of the 64-bit integers among values, added from left to right; others are left out. -/
def sum (values : List Value) : Except Abort Int64 := (values.filterMap Value.int64?).foldlM add 0

/-- A body that calls no task. -/
def body (f : Bound → Except Abort Int64) : Body := fun b => .done (Value.int <$> f b)

/-! ## Increment -/

def incrementBody (b : Bound) : Except Abort Int64 := do add (← b.int64 "value") 1

def incrementConstraint : ResourceConstraint :=
  ⟨Dict.ofList [("computing_units", "2"), ("memory_size", "1")]⟩

def increment : Declaration where
  info := info "increment" [{ name := "value" }]
  layers := [.constraint incrementConstraint, .task {}]
  body := body incrementBody

/-! ## Solve -/

def solveBody (b : Bound) : Except Abort Int64 := do
  let grid ← match (← b.require "grid").array? with
    | some grid => .ok grid
    | none => .error (.failure "grid debe ser una lista")
  let iterations ← b.int64 "iterations"
  multiply (← sum grid) iterations

def solveRun : MpiParallel :=
  { runner := "mpirun"
    processes := .count 4
    workingDir := some "/tmp"
    failByExitValue := "true"
    layout := some ⟨"grid", some 2, some 2, some 2⟩ }

def solve : Declaration where
  info := info "solve" [{ name := "grid" }, { name := "iterations", default := some (.int 10) }]
  layers := [.mpi solveRun, .task {}]
  body := body solveBody

/-! ## Scale -/

def square : TransformFunction := fun v _ =>
  match v.int64? with
  | some n => Value.int <$> multiply n n
  | none => .error (.failure ("square: se esperaba un entero, llegó " ++ Json.text v))

def squareX : Transform := { param := "x", function := square }

def scaleBody (b : Bound) : Except Abort Int64 := do
  multiply (← b.int64 "x") (← b.int64 "factor")

def scale : Declaration where
  info := info "scale" [{ name := "x" }, { name := "factor", default := some (.int 3) }]
  layers := [.transformation [squareX], .task {}]
  body := body scaleBody

/-! ## All of them -/

/-- The tasks in the order in which they are shown. -/
def tasks : List Declaration := [increment, solve, scale]

/-- Declares every task under the name of its function. -/
def declareAll (s : Session) : Session := tasks.foldl (fun s d => (s.declare d.info.name d).2) s

/-- What is shown of a task: its descriptor once that was handed over, before that what was
declared. -/
def report (s : Session) (d : Declaration) : String :=
  match s.registered? d.info.name with
  | some r => r.descriptor.report
  | none => d.inspect false

example : tasks.map (fun d => (Declaration.build d.info d.layers d.body).isOk) =
    [true, true, true] := by decide +kernel

end TaskStack.Catalogue
