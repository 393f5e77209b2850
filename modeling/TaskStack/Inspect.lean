import TaskStack.Json.Number
import TaskStack.Text.Quoted

/-!
# Showing data

The text of data for a reader of messages: records with their name and fields, lists and maps in
brackets, strings quoted, and JSON values with the name of their kind.
-/

namespace TaskStack.Inspect

def string (s : String) : String := Text.quoted s

def bool (b : Bool) : String := if b then "true" else "false"

def list (items : List String) : String := "[" ++ ", ".intercalate items ++ "]"

/-- A map from names, which are quoted, to shown values. -/
def map (entries : List (String × String)) : String :=
  "\x7b" ++ ", ".intercalate (entries.map fun e => string e.1 ++ ": " ++ e.2) ++ "\x7d"

/-- A record with its fields. -/
def record (name : String) (fields : List (String × String)) : String :=
  name ++ " \x7b " ++ ", ".intercalate (fields.map fun f => f.1 ++ ": " ++ f.2) ++ " \x7d"

def option (shown : Option String) : String :=
  match shown with
  | none => "None"
  | some s => "Some(" ++ s ++ ")"

mutual

def value : Value → String
  | .null => "Null"
  | .bool b => "Bool(" ++ bool b ++ ")"
  | .number n => "Number(" ++ n.text ++ ")"
  | .string s => "String(" ++ string s ++ ")"
  | .array items => "Array " ++ list (values items)
  | .object fields => "Object " ++ map (fieldValues fields)

def values : List Value → List String
  | [] => []
  | v :: rest => value v :: values rest

def fieldValues : List (String × Value) → List (String × String)
  | [] => []
  | (k, v) :: rest => (k, value v) :: fieldValues rest

end

def options (o : Options) : String := map (fieldValues o.entries)

end TaskStack.Inspect
