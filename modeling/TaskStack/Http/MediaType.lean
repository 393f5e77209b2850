import TaskStack.Text.Blank

/-!
# Media types

When the type of a body counts as JSON: an application type whose subtype is `json`, or ends in
`+json`. Letter case does not matter; anything after a semicolon has to be a list of parameters.
-/

namespace TaskStack.Http.MediaType

/-- A character of a token. -/
def isToken (c : Char) : Bool :=
  c.isAlphanum || "!#$%&'*+-.^_`|~".toList.contains c

/-- A character that a quoted value may hold. -/
def isQuotable (c : Char) : Bool := 0x20 ≤ c.toNat && c.toNat < 0x7F

/-- What is left behind a quoted value whose opening quote is taken, from the next parameter on. A
value is not empty, so its first character does not close it, be it a quote. -/
def afterQuoted : List Char → Option (List Char)
  | [] => none
  | c :: cs =>
    if !isQuotable c then none
    else match cs.dropWhile fun d => isQuotable d && d != '"' with
      | '"' :: rest =>
        match rest.dropWhile (· = ' ') with
        | [] => some []
        | d :: rest => if d = ';' then some rest else none
      | _ => none

/-- Reads the parameters after a semicolon. -/
def parameters : Nat → List Char → Bool
  | 0, _ => false
  | _ + 1, [] => true
  | n + 1, c :: rest =>
    if c = ' ' then parameters n rest
    else
      let cs := c :: rest
      match cs.dropWhile isToken with
      | d :: value =>
        if d = '=' ∧ isToken c then
          match value with
          | '"' :: quoted =>
            match afterQuoted quoted with
            | some rest => parameters n rest
            | none => false
          | _ =>
            match value.dropWhile isToken with
            | [] => true
            | e :: rest => e = ';' && !(value.takeWhile isToken).isEmpty && parameters n rest
        else false
      | [] => false

/-- What stands after the last plus of a subtype, if that is not its first character. -/
def ending (subtype : List Char) : Option (List Char) :=
  if (subtype.drop 1).contains '+' then some (subtype.reverse.takeWhile (· != '+')).reverse
  else none

/-- The subtype without its ending. -/
def stem (subtype : List Char) : List Char :=
  match ending subtype with
  | some e => subtype.take (subtype.length - e.length - 1)
  | none => subtype

def isJson (text : String) : Bool :=
  let cs := (Text.asciiLower text).toList
  let type := cs.takeWhile isToken
  match cs.dropWhile isToken with
  | '/' :: rest =>
    let subtype := rest.takeWhile isToken
    let tail := match rest.dropWhile isToken with
      | [] => true
      | c :: params => c = ';' && !subtype.isEmpty && parameters (params.length + 1) params
    type = "application".toList && tail &&
      (stem subtype = "json".toList || ending subtype = some "json".toList)
  | _ => false

example : isJson "Application/JSON; charset=\"utf-8\"" = true := by decide +kernel
example : isJson "application/vnd.api+json" = true := by decide +kernel
example : isJson "application/json; a=\"\"\"; b=\"c\"" = true := by decide +kernel
example : isJson "application/json; a=\"\"" = false := by decide +kernel
example : isJson "text/json" = false ∧ isJson "application/jsonx" = false := by decide +kernel

end TaskStack.Http.MediaType
