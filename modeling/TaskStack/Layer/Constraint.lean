import TaskStack.Layer.Options
import TaskStack.Layer.Recognized

/-!
# Resource constraints of a task

A layer that asks for resources. Each option is the name of a resource and a scalar, which the
engine gets as text.
-/

namespace TaskStack

structure ResourceConstraint where
  constraints : Dict String
deriving DecidableEq, Repr

namespace ResourceConstraint

def name : String := "@constraint"

/-- The text of a scalar. -/
def render? : Value → Option String
  | .string s => some s
  | .number n => some n.text
  | .bool b => some (Inspect.bool b)
  | _ => none

/-- Takes options one after another into the constraints gathered before. -/
def gather : List (String × Value) → Dict String → Except ConfigurationError (Dict String)
  | [], gathered => .ok gathered
  | (key, value) :: rest, gathered =>
    match Resource.normalize? key with
    | none => .error (.unsupportedOption name key)
    | some resource =>
      match render? value with
      | none => .error (.invalidValue name key "se esperaba un valor escalar")
      | some text =>
        if gathered.contains resource then
          .error (.conflictingOptions name ("'" ++ resource ++ "' definida dos veces"))
        else gather rest (gathered.insert resource text)

def ofOptions (options : Options) : Except ConfigurationError ResourceConstraint :=
  if options.isEmpty then .error (.missingOption name "<restricción>")
  else return { constraints := ← gather options.entries ∅ }

end ResourceConstraint
end TaskStack
