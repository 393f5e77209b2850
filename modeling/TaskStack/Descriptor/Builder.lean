import TaskStack.Error

/-!
# Descriptors under construction

The layers of a task write the fields of its descriptor one at a time, and a field that has a value
is never written again. The slot that the layers share remembers which of them needed a descriptor
first.

- `DescriptorBuilder.write`: one write, refused if the field is taken
- `DescriptorBuilder.writeAll`: writes up to the first that is refused
- `DescriptorSlot.configure`: the same on the shared slot
-/

namespace TaskStack

/-- One field of a descriptor with its value. -/
inductive FieldWrite where
  | canonicalSignature (s : String)
  | implementationSignature (s : String)
  | constraints (c : Dict String)
  | implementationType (t : ImplementationType)
  | io (b : Bool)
  | implementationArgs (args : List String)
deriving DecidableEq, Repr

def FieldWrite.field : FieldWrite → DescriptorField
  | .canonicalSignature _ => .canonicalSignature
  | .implementationSignature _ => .implementationSignature
  | .constraints _ => .constraints
  | .implementationType _ => .implementationType
  | .io _ => .io
  | .implementationArgs _ => .implementationArgs

structure DescriptorBuilder where
  canonicalSignature : Option String := none
  implementationSignature : Option String := none
  constraints : Option (Dict String) := none
  implementationType : Option ImplementationType := none
  io : Option Bool := none
  implementationArgs : Option (List String) := none
deriving DecidableEq, Repr

namespace DescriptorBuilder

def has (b : DescriptorBuilder) : DescriptorField → Bool
  | .canonicalSignature => b.canonicalSignature.isSome
  | .implementationSignature => b.implementationSignature.isSome
  | .constraints => b.constraints.isSome
  | .implementationType => b.implementationType.isSome
  | .io => b.io.isSome
  | .implementationArgs => b.implementationArgs.isSome

/-- Sets a field, whatever it held. -/
def set (b : DescriptorBuilder) : FieldWrite → DescriptorBuilder
  | .canonicalSignature s => { b with canonicalSignature := some s }
  | .implementationSignature s => { b with implementationSignature := some s }
  | .constraints c => { b with constraints := some c }
  | .implementationType t => { b with implementationType := some t }
  | .io i => { b with io := some i }
  | .implementationArgs args => { b with implementationArgs := some args }

/-- Writes a field in the name of a layer, unless it has a value. -/
def write (b : DescriptorBuilder) (writer : String) (w : FieldWrite) :
    Except DescriptorConflict DescriptorBuilder :=
  if b.has w.field then .error ⟨w.field, writer⟩ else .ok (b.set w)

/-- Writes fields one after another up to the first that is refused. -/
def writeAll (b : DescriptorBuilder) (writer : String) :
    List FieldWrite → Except DescriptorConflict Unit × DescriptorBuilder
  | [] => (.ok (), b)
  | w :: rest =>
    match b.write writer w with
    | .ok b' => b'.writeAll writer rest
    | .error e => (.error e, b)

/-- Closes the descriptor. All it needs is a canonical signature. -/
def sealed (b : DescriptorBuilder) : Except DefinitionError TaskDescriptor :=
  match b.canonicalSignature with
  | none => .error .missingSignature
  | some signature => .ok
    { canonicalSignature := signature
      implementationSignature := b.implementationSignature
      constraints := b.constraints
      implementationType := b.implementationType
      io := b.io
      implementationArgs := b.implementationArgs }

@[simp] theorem has_set_self (b : DescriptorBuilder) (w : FieldWrite) :
    (b.set w).has w.field = true := by
  cases w <;> rfl

theorem has_set_of_ne (b : DescriptorBuilder) {w : FieldWrite} {f : DescriptorField}
    (h : w.field ≠ f) : (b.set w).has f = b.has f := by
  cases w <;> cases f <;> first | rfl | exact absurd rfl h

end DescriptorBuilder

/-- What the layers of a task share while they configure it: the descriptor, once a layer needed it,
and the name of that layer. -/
structure DescriptorSlot where
  builder : Option DescriptorBuilder := none
  createdBy : Option String := none
deriving DecidableEq, Repr

namespace DescriptorSlot

/-- The descriptor of the slot, made now if there is none. -/
def getOrCreate (s : DescriptorSlot) (creator : String) : DescriptorBuilder × DescriptorSlot :=
  match s.builder with
  | some b => (b, s)
  | none => ({}, ⟨some {}, some creator⟩)

/-- Writes the fields of a layer. A layer with nothing to write leaves the slot alone. -/
def configure (s : DescriptorSlot) (writer : String) (writes : List FieldWrite) :
    Except DescriptorConflict Unit × DescriptorSlot :=
  if writes.isEmpty then (.ok (), s)
  else
    let (b, s) := s.getOrCreate writer
    let (result, b) := b.writeAll writer writes
    (result, { s with builder := some b })

end DescriptorSlot
end TaskStack
