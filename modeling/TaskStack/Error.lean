import TaskStack.Descriptor.Basic
import TaskStack.Role

/-!
# What can go wrong

Errors are grouped by when they show: options that make no sense when a layer is built, a descriptor
field written twice, a task whose target cannot be resolved, a hand-off the engine did not take, a
role change that is not allowed, and the failure of a task's own body. `TaskError.message` holds all
wording. A call can also end without an answer at all (`Fault`).
-/

namespace TaskStack

/-- Options that are missing, unknown or do not go together. -/
inductive ConfigurationError where
  | missingOption (layer option : String)
  | unsupportedOption (layer option : String)
  | conflictingOptions (layer detail : String)
  | invalidValue (layer option reason : String)
  | unknownParameter (layer param task : String)
  | missingTaskLayer (task : String)
  | duplicateTaskLayer (task : String)
deriving DecidableEq, Repr

/-- A layer wrote a field that had a value already. -/
structure DescriptorConflict where
  field : DescriptorField
  writer : String
deriving DecidableEq, Repr

/-- A task that cannot resolve what it is about. -/
inductive DefinitionError where
  | missingTransform (task : String)
  | unknownParameter (param task : String)
  | missingSignature
deriving DecidableEq, Repr

/-- A descriptor or a call that could not be handed to an engine. -/
inductive HandoffError where
  | noEngine
  | rejected (signature reason : String)
  | transport (detail : String)
  | poisoned (lock : String)
deriving DecidableEq, Repr

inductive ContextError where
  | invalidTransition (current next : Role)
  | unknownRole (name : String)
deriving DecidableEq, Repr

/-- Why a call of a declared task gave no value. -/
inductive TaskError where
  | configuration (e : ConfigurationError)
  | conflict (e : DescriptorConflict)
  | definition (e : DefinitionError)
  | handoff (e : HandoffError)
  | context (e : ContextError)
  | execution (detail : String)
deriving DecidableEq, Repr

/-- How a task body or a transformation ends without a value: with a failure that it reports, or
with a panic. -/
inductive Abort where
  | failure (detail : String)
  | panic (text : String)
deriving DecidableEq, Repr

/-- How a call ends without a value: with an error, with a panic, or, when bodies call each other
deeper than allowed, with neither. -/
inductive Fault where
  | error (e : TaskError)
  | panic (text : String)
  | tooDeep
deriving DecidableEq, Repr

def Abort.fault : Abort → Fault
  | .failure detail => .error (.execution detail)
  | .panic text => .panic text

def ConfigurationError.message : ConfigurationError → String
  | .missingOption a o => a ++ ": falta la opción obligatoria '" ++ o ++ "'"
  | .unsupportedOption a o => a ++ ": opción no soportada '" ++ o ++ "'"
  | .conflictingOptions a detail => a ++ ": opciones incompatibles: " ++ detail
  | .invalidValue a o reason => a ++ ": valor inválido para '" ++ o ++ "': " ++ reason
  | .unknownParameter a p t => a ++ ": el parámetro '" ++ p ++ "' no existe en la tarea " ++ t
  | .missingTaskLayer t => "la tarea " ++ t ++ " no tiene capa @task"
  | .duplicateTaskLayer t => "la tarea " ++ t ++ " declara más de una capa @task"

def DescriptorConflict.message (e : DescriptorConflict) : String :=
  e.writer ++ ": el campo '" ++ e.field.name ++ "' del descriptor ya estaba asignado"

def DefinitionError.message : DefinitionError → String
  | .missingTransform t => "@data_transformation sin transformaciones para la tarea " ++ t
  | .unknownParameter p t => "el parámetro '" ++ p ++ "' no existe en la tarea " ++ t
  | .missingSignature => "el descriptor no tiene firma canónica"

def HandoffError.message : HandoffError → String
  | .noEngine => "no hay engine asociado al contexto de ejecución"
  | .rejected s reason => "el engine rechazó " ++ s ++ ": " ++ reason
  | .transport detail => "error de transporte hacia el engine: " ++ detail
  | .poisoned lock => "estado interno envenenado (" ++ lock ++ ")"

def ContextError.message : ContextError → String
  | .invalidTransition current next =>
    "transición de rol inválida: " ++ current.name ++ " -> " ++ next.name
  | .unknownRole name => "rol desconocido '" ++ name ++ "'"

def TaskError.message : TaskError → String
  | .configuration e => e.message
  | .conflict e => e.message
  | .definition e => e.message
  | .handoff e => e.message
  | .context e => e.message
  | .execution detail => detail

/-- Reads a role; the error shows the name as it was looked up. -/
def Role.ofText (text : String) : Except ContextError Role :=
  match Role.ofText? text with
  | some r => .ok r
  | none => .error (.unknownRole (Role.normalize text))

end TaskStack
