import TaskStack.Inspect

/-!
# Task descriptors

A sealed descriptor is what an engine gets to know about a task: its canonical signature, and
whatever its layers said about the implementation, the resources it needs and its input and output.
-/

namespace TaskStack

/-- The kinds of implementation an engine can run. -/
inductive ImplementationType where
  | plain
  | mpi
  | pythonMpi
  | binary
deriving DecidableEq, Repr

namespace ImplementationType

def name : ImplementationType → String
  | .plain => "PLAIN"
  | .mpi => "MPI"
  | .pythonMpi => "PYTHON_MPI"
  | .binary => "BINARY"

def ofName? (s : String) : Option ImplementationType :=
  [plain, mpi, pythonMpi, binary].find? (·.name = s)

/-- How many implementation arguments an engine expects: module and function of a plain task; ten
arguments of a parallel run; program, directory and failure flag of a binary. -/
def argumentCount : ImplementationType → Nat
  | .plain => 2
  | .mpi | .pythonMpi => 10
  | .binary => 3

@[simp] theorem ofName?_name (t : ImplementationType) : ofName? t.name = some t := by
  cases t <;> decide

end ImplementationType

/-- The fields of a descriptor, each written by one layer at most. -/
inductive DescriptorField where
  | canonicalSignature
  | implementationSignature
  | constraints
  | implementationType
  | io
  | implementationArgs
deriving DecidableEq, Repr

def DescriptorField.name : DescriptorField → String
  | .canonicalSignature => "canonical_signature"
  | .implementationSignature => "implementation_signature"
  | .constraints => "constraints"
  | .implementationType => "implementation_type"
  | .io => "io"
  | .implementationArgs => "implementation_args"

structure TaskDescriptor where
  canonicalSignature : String
  implementationSignature : Option String := none
  constraints : Option (Dict String) := none
  implementationType : Option ImplementationType := none
  io : Option Bool := none
  implementationArgs : Option (List String) := none
deriving DecidableEq, Repr

namespace TaskDescriptor

/-- The report of a descriptor, a line for each field; a field without a value shows a dash. -/
def report (d : TaskDescriptor) : String :=
  let constraints := match d.constraints with
    | some c => if c.isEmpty then "-" else
        String.join (c.entries.map fun e => e.1 ++ ":" ++ e.2 ++ ";")
    | none => "-"
  let args := match d.implementationArgs with
    | some args => Inspect.list (args.map Inspect.string)
    | none => "-"
  "descriptor " ++ d.canonicalSignature ++
  "\n  - firma impl.   : " ++ d.implementationSignature.getD "-" ++
  "\n  - restricciones : " ++ constraints ++
  "\n  - tipo impl.    : " ++ (d.implementationType.map (·.name)).getD "-" ++
  "\n  - io            : " ++ (d.io.map Inspect.bool).getD "-" ++
  "\n  - args impl.    : " ++ args

end TaskDescriptor
end TaskStack
