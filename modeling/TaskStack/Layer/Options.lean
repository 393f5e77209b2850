import TaskStack.Error

/-!
# Options of a layer

Which options a layer takes: those it has to be given, those it may be given, old names that stand
for new ones, and names that are not known beforehand. Options are gone through in the order of
their names, so of several faults the one with the smallest name is reported.
-/

namespace TaskStack

structure OptionRules where
  layer : String
  mandatory : List String := []
  supported : List String := []
  deprecated : List (String × String) := []

namespace OptionRules

/-- The option that a key stands for, if it is one; `dynamic` accepts keys not known beforehand. -/
def target? (r : OptionRules) (dynamic : String → Bool) (key : String) : Option String :=
  match r.deprecated.find? (·.1 = key) with
  | some (_, replacement) => some replacement
  | none => if r.supported.contains key || dynamic key then some key else none

/-- Renames options one after another into those renamed before. -/
def rename (r : OptionRules) (dynamic : String → Bool) :
    List (String × Value) → Options → Except ConfigurationError Options
  | [], renamed => .ok renamed
  | (key, value) :: rest, renamed =>
    match r.target? dynamic key with
    | none => .error (.unsupportedOption r.layer key)
    | some target =>
      if renamed.contains target then
        .error (.conflictingOptions r.layer
          ("'" ++ target ++ "' definida dos veces (con su alias obsoleto)"))
      else r.rename dynamic rest (renamed.insert target value)

/-- The options under the names they stand for, if every one is known, no two stand for the same,
and none is missing. -/
def check (r : OptionRules) (options : Options) (dynamic : String → Bool) :
    Except ConfigurationError Options := do
  let renamed ← r.rename dynamic options.entries ∅
  match r.mandatory.find? (!renamed.contains ·) with
  | some missing => .error (.missingOption r.layer missing)
  | none => .ok renamed

def invalid (r : OptionRules) (option reason : String) : ConfigurationError :=
  .invalidValue r.layer option reason

/-- A string option that may be left out. -/
def string? (r : OptionRules) (options : Options) (key : String) :
    Except ConfigurationError (Option String) :=
  match options.get? key with
  | none => .ok none
  | some (.string s) => .ok (some s)
  | some _ => .error (r.invalid key "se esperaba un string")

/-- A flag, or a reference that the engine resolves, as the engine gets it. -/
def flag (r : OptionRules) (options : Options) (key default : String) :
    Except ConfigurationError String :=
  match options.get? key with
  | none => .ok default
  | some (.bool b) => .ok (Inspect.bool b)
  | some (.string s) => .ok s
  | some (.number n) => .ok n.text
  | some _ => .error (r.invalid key "se esperaba un booleano o una variable de entorno")

end OptionRules
end TaskStack
