import TaskStack.Text.Unprintable

/-!
# Quoted text

How a string is shown inside a longer text: in double quotes, with a backslash in front of quotes
and backslashes, short forms for the usual controls, and the hexadecimal number in braces for every
other character that would not be seen as itself.
-/

namespace TaskStack.Text

/-- A character as it stands inside quotes. -/
def escape (c : Char) : List Char :=
  if c = '"' then ['\\', '"']
  else if c = '\\' then ['\\', '\\']
  else if c = '\n' then ['\\', 'n']
  else if c = '\t' then ['\\', 't']
  else if c = '\r' then ['\\', 'r']
  else if c.toNat = 0 then ['\\', '0']
  else if 0x20 ≤ c.toNat ∧ c.toNat < 0x7F then [c]
  else if isExtendingMark c || isUnprintable c then
    ['\\', 'u', '\x7b'] ++ Nat.toDigits 16 c.toNat ++ ['\x7d']
  else [c]

/-- A string in quotes. -/
def quoted (s : String) : String := String.ofList ('"' :: s.toList.flatMap escape ++ ['"'])

example : quoted "a'\"\u200b\x1bñ" = "\"a'\\\"\\u\x7b200b\x7d\\u\x7b1b\x7dñ\"" := by decide +kernel

end TaskStack.Text
