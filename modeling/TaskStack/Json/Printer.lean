import TaskStack.Json.Number

/-!
# Writing JSON

The compact text of a value: no blanks, the fields of an object in their order, and in a string
only what JSON has to escape, with the two-letter form where there is one.
-/

namespace TaskStack.Json

def hexDigit (n : Nat) : Char := (Nat.digitChar (n % 16))

/-- A character inside quotes. -/
def escape (c : Char) : List Char :=
  if c = '"' then ['\\', '"']
  else if c = '\\' then ['\\', '\\']
  else if c.toNat = 0x8 then ['\\', 'b']
  else if c.toNat = 0xC then ['\\', 'f']
  else if c = '\n' then ['\\', 'n']
  else if c = '\r' then ['\\', 'r']
  else if c = '\t' then ['\\', 't']
  else if c.toNat < 0x20 then
    ['\\', 'u', '0', '0', hexDigit (c.toNat / 16), hexDigit c.toNat]
  else [c]

/-- A string in quotes. -/
def quote (s : String) : List Char := '"' :: s.toList.flatMap escape ++ ['"']

/-- Joins written items with commas. -/
def commaJoin : List (List Char) → List Char
  | [] => []
  | [item] => item
  | item :: rest => item ++ ',' :: commaJoin rest

def writeArray (items : List (List Char)) : List Char := '[' :: commaJoin items ++ [']']

/-- An object from the names of its fields and their written values. -/
def writeObject (fields : List (String × List Char)) : List Char :=
  '{' :: commaJoin (fields.map fun f => quote f.1 ++ ':' :: f.2) ++ ['}']

def writeBool (b : Bool) : List Char := if b then "true".toList else "false".toList

def writeNull : List Char := "null".toList

def writeOption {α : Type} (write : α → List Char) : Option α → List Char
  | none => writeNull
  | some a => write a

mutual

def write : Value → List Char
  | .null => writeNull
  | .bool b => writeBool b
  | .number n => n.write
  | .string s => quote s
  | .array items => writeArray (writeItems items)
  | .object fields => writeObject (writeFields fields)

def writeItems : List Value → List (List Char)
  | [] => []
  | v :: rest => write v :: writeItems rest

def writeFields : List (String × Value) → List (String × List Char)
  | [] => []
  | (k, v) :: rest => (k, write v) :: writeFields rest

end

/-- The compact text of a value. -/
def text (v : Value) : String := String.ofList (write v)

example : text (.object [("a", .array [.null, .bool true]), ("b", .string "ñ\n\x01")]) =
    "\x7b\"a\":[null,true],\"b\":\"ñ\\n\\u0001\"\x7d" := by decide +kernel

end TaskStack.Json
