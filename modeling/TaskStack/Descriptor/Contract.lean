import TaskStack.Error
import TaskStack.Layer.Recognized

/-!
# The contract with the engine

What a descriptor has to satisfy before it is handed over: a signature that is not blank, an
implementation type with as many arguments as it asks for, an implementation signature, and only
constraints that are recognized. The first breach in that order is the reason of the refusal.
-/

namespace TaskStack.TaskDescriptor

/-- The first breach of the contract. -/
def breach? (d : TaskDescriptor) : Option String :=
  if Text.allBlank d.canonicalSignature then some "firma canónica vacía"
  else match implementationBreach? d.implementationType d.implementationArgs with
    | some reason => some reason
    | none =>
      if d.implementationSignature.isNone then some "sin firma de implementación"
      else match (d.constraints.getD ∅).keys.find? (!Resource.isRecognized ·) with
        | some key => some ("restricción desconocida '" ++ key ++ "'")
        | none => none
where
  implementationBreach? : Option ImplementationType → Option (List String) → Option String
    | some t, some args =>
      if args.length = t.argumentCount then none
      else some (t.name ++ " espera " ++ toString t.argumentCount ++
        " args de implementación y llegaron " ++ toString args.length)
    | some t, none => some (t.name ++ " sin args de implementación")
    | none, some _ => some "args de implementación sin tipo"
    | none, none => some "sin tipo de implementación"

/-- Refuses a descriptor that breaks the contract. -/
def validate (d : TaskDescriptor) : Except HandoffError Unit :=
  match d.breach? with
  | some reason => .error (.rejected d.canonicalSignature reason)
  | none => .ok ()

end TaskStack.TaskDescriptor
