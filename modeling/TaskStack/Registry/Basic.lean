import TaskStack.Descriptor.Contract
import TaskStack.Registry.Element

/-!
# The registry of descriptors

The registry keeps the first valid descriptor of every signature, with the id and the time it got
then. Handing in an equal one changes nothing and gives the same id; a different one is refused.
-/

namespace TaskStack

/-- The id and the time that a new element gets. -/
structure Stamp where
  id : String
  time : Instant
deriving DecidableEq, Repr

/-- The elements by signature. A poisoned registry answers nothing that needs them. -/
structure Registry where
  elements : Dict RegisteredElement := ∅
  poisoned : Bool := false
deriving DecidableEq, Repr

namespace Registry

inductive Refusal where
  | invalid (reason : String)
  | conflict (reason : String)
  | poisoned
deriving DecidableEq, Repr

/-- A stamp that no element has yet: elements are numbered in the order in which they came. -/
def nextStamp (r : Registry) : Stamp :=
  let n := r.elements.entries.length
  ⟨"id-" ++ toString (n + 1), ⟨n, 0⟩⟩

/-- Takes a descriptor in; the flag says whether it is new. -/
def register (r : Registry) (stamp : Stamp) (d : TaskDescriptor) :
    Except Refusal (RegisteredElement × Bool) × Registry :=
  match d.breach? with
  | some reason => (.error (.invalid reason), r)
  | none =>
    if r.poisoned then (.error .poisoned, r)
    else match r.elements.get? d.canonicalSignature with
      | some e =>
        if e.descriptor = d then (.ok (e, false), r)
        else (.error (.conflict
          (d.canonicalSignature ++ " ya está registrado con otro contenido")), r)
      | none =>
        let e : RegisteredElement := ⟨stamp.id, d, stamp.time⟩
        (.ok (e, true), { r with elements := r.elements.insert d.canonicalSignature e })

/-- Sorts elements by the signatures of their descriptors. -/
def sortBySignature (elements : List RegisteredElement) : List RegisteredElement :=
  elements.mergeSort fun a b => a.descriptor.canonicalSignature ≤ b.descriptor.canonicalSignature

/-- All elements in the order of their signatures. -/
def list (r : Registry) : Except Refusal (List RegisteredElement) :=
  if r.poisoned then .error .poisoned else .ok (sortBySignature r.elements.values)

def get (r : Registry) (signature : String) : Except Refusal (Option RegisteredElement) :=
  if r.poisoned then .error .poisoned else .ok (r.elements.get? signature)

end Registry
end TaskStack
