import TaskStack.Descriptor.Basic
import TaskStack.Json.Printer
import TaskStack.Json.Record

/-!
# Descriptors as JSON

A descriptor is written as an object with its six fields in order, `null` for a field without a
value. When one is read, only the canonical signature has to be there.
-/

namespace TaskStack.TaskDescriptor

open Json

def writeStrings (items : List String) : List Char := writeArray (items.map quote)

def writeDict (d : Dict String) : List Char :=
  writeObject (d.entries.map fun e => (e.1, quote e.2))

def write (d : TaskDescriptor) : List Char :=
  writeObject
    [("canonical_signature", quote d.canonicalSignature),
      ("implementation_signature", writeOption quote d.implementationSignature),
      ("constraints", writeOption writeDict d.constraints),
      ("implementation_type", writeOption (fun t => quote t.name) d.implementationType),
      ("io", writeOption writeBool d.io),
      ("implementation_args", writeOption writeStrings d.implementationArgs)]

/-- The JSON text of a descriptor. -/
def json (d : TaskDescriptor) : String := String.ofList d.write

/-- The fields read so far; an optional field that was read as `null` counts as read. -/
structure Parts where
  canonicalSignature : Option String := none
  implementationSignature : Option (Option String) := none
  constraints : Option (Option (Dict String)) := none
  implementationType : Option (Option ImplementationType) := none
  io : Option (Option Bool) := none
  implementationArgs : Option (Option (List String)) := none

def Parts.fields : List (RecordField Parts) :=
  [.of "canonical_signature" (·.canonicalSignature)
      (fun v s => { s with canonicalSignature := some v }) Reader.string,
    .of "implementation_signature" (·.implementationSignature)
      (fun v s => { s with implementationSignature := some v }) Reader.string.option,
    .of "constraints" (·.constraints)
      (fun v s => { s with constraints := some v }) Reader.string.dict.option,
    .of "implementation_type" (·.implementationType)
      (fun v s => { s with implementationType := some v })
      (Reader.name ImplementationType.ofName?).option,
    .of "io" (·.io) (fun v s => { s with io := some v }) Reader.bool.option,
    .of "implementation_args" (·.implementationArgs)
      (fun v s => { s with implementationArgs := some v }) Reader.string.list.option]

def Parts.descriptor? (p : Parts) : Option TaskDescriptor :=
  p.canonicalSignature.map fun signature =>
    { canonicalSignature := signature
      implementationSignature := p.implementationSignature.join
      constraints := p.constraints.join
      implementationType := p.implementationType.join
      io := p.io.join
      implementationArgs := p.implementationArgs.join }

def reader : Reader TaskDescriptor := Reader.record Parts.fields {} Parts.descriptor?

/-- The descriptor that a text holds. -/
def ofJson (text : String) : Except Json.Fault TaskDescriptor := reader.all text

end TaskStack.TaskDescriptor
