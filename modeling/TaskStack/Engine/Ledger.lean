import TaskStack.Call.Args
import TaskStack.Descriptor.Contract

/-!
# The ledger of an engine

What an engine in this process remembers: the descriptors it took, in the order they came, how often
each signature was submitted, and the markers of its latest submission. A submission is noted before
its body runs, so the body may submit other tasks, fail or panic without a trace in the ledger.
-/

namespace TaskStack

structure Ledger where
  registrations : List TaskDescriptor := []
  submissions : Dict Nat := ∅
  lastMarkers : Dict Options := ∅

namespace Ledger

instance : Inhabited Ledger := ⟨{}⟩

/-- The descriptor held under a signature. -/
def descriptor? (l : Ledger) (signature : String) : Option TaskDescriptor :=
  l.registrations.find? (·.canonicalSignature = signature)

def registrationCount (l : Ledger) (signature : String) : Nat :=
  l.registrations.countP (·.canonicalSignature = signature)

def submissionCount (l : Ledger) (signature : String) : Nat := (l.submissions.get? signature).getD 0

/-- Takes a valid descriptor unless a different one is held under its signature. -/
def register (l : Ledger) (d : TaskDescriptor) : Except HandoffError Unit × Ledger :=
  match d.validate with
  | .error e => (.error e, l)
  | .ok () =>
    match l.descriptor? d.canonicalSignature with
    | some held =>
      if held = d then (.ok (), l)
      else (.error (.rejected d.canonicalSignature "ya registrado con otro contenido"), l)
    | none => (.ok (), { l with registrations := l.registrations ++ [d] })

/-- Notes a submission: one more for the signature, and the markers it carries. -/
def note (l : Ledger) (signature : String) (args : Args) : Ledger :=
  { l with
    submissions := l.submissions.insert signature (l.submissionCount signature + 1)
    lastMarkers := l.lastMarkers.insert signature args.markers }

end Ledger
end TaskStack
