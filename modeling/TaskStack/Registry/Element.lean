import TaskStack.Descriptor.Json
import TaskStack.Time.Instant

/-!
# Messages of the registry

What the registry keeps of a descriptor, and what it answers when one is handed in, both with their
JSON form.
-/

namespace TaskStack

open Json

/-- A descriptor as the registry keeps it. -/
structure RegisteredElement where
  registrationId : String
  descriptor : TaskDescriptor
  registeredAt : Instant
deriving DecidableEq, Repr

/-- The answer to a descriptor that was taken; `created` is false when it was there already. -/
structure RegistrationResponse where
  registrationId : String
  canonicalSignature : String
  created : Bool
deriving DecidableEq, Repr

/-- A point in time as a string. -/
def Json.Reader.instant : Reader Instant := fun cs => do
  let (s, cs) ← Reader.string cs
  match Instant.ofText? s with
  | some t => .ok (t, cs)
  | none => .error .mismatched

namespace RegistrationResponse

def write (r : RegistrationResponse) : List Char :=
  writeObject
    [("registration_id", quote r.registrationId),
      ("canonical_signature", quote r.canonicalSignature), ("created", writeBool r.created)]

def json (r : RegistrationResponse) : String := String.ofList r.write

structure Parts where
  registrationId : Option String := none
  canonicalSignature : Option String := none
  created : Option Bool := none

def Parts.fields : List (RecordField Parts) :=
  [.of "registration_id" (·.registrationId) (fun v s => { s with registrationId := some v })
      Reader.string,
    .of "canonical_signature" (·.canonicalSignature)
      (fun v s => { s with canonicalSignature := some v }) Reader.string,
    .of "created" (·.created) (fun v s => { s with created := some v }) Reader.bool]

def Parts.response? (p : Parts) : Option RegistrationResponse := do
  some ⟨← p.registrationId, ← p.canonicalSignature, ← p.created⟩

def reader : Reader RegistrationResponse := Reader.record Parts.fields {} Parts.response?

def ofJson (text : String) : Except Json.Fault RegistrationResponse := reader.all text

end RegistrationResponse

namespace RegisteredElement

def write (e : RegisteredElement) : List Char :=
  writeObject
    [("registration_id", quote e.registrationId), ("descriptor", e.descriptor.write),
      ("registered_at", quote e.registeredAt.text)]

def json (e : RegisteredElement) : String := String.ofList e.write

structure Parts where
  registrationId : Option String := none
  descriptor : Option TaskDescriptor := none
  registeredAt : Option Instant := none

def Parts.fields : List (RecordField Parts) :=
  [.of "registration_id" (·.registrationId) (fun v s => { s with registrationId := some v })
      Reader.string,
    .of "descriptor" (·.descriptor) (fun v s => { s with descriptor := some v })
      TaskDescriptor.reader,
    .of "registered_at" (·.registeredAt) (fun v s => { s with registeredAt := some v })
      Reader.instant]

def Parts.element? (p : Parts) : Option RegisteredElement := do
  some ⟨← p.registrationId, ← p.descriptor, ← p.registeredAt⟩

def reader : Reader RegisteredElement := Reader.record Parts.fields {} Parts.element?

def ofJson (text : String) : Except Json.Fault RegisteredElement := reader.all text

end RegisteredElement
end TaskStack
