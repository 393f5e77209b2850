/-!
# Requests and answers
-/

namespace TaskStack.Http

structure Request where
  method : String
  /-- What is asked for: a path with its query, or a whole address. -/
  target : String
  contentType : Option String := none
  body : String := ""
deriving DecidableEq, Repr

inductive Body where
  | none
  | text (s : String)
  | json (s : String)
deriving DecidableEq, Repr

/-- The text of a body. -/
def Body.content : Body → String
  | .none => ""
  | .text s | .json s => s

/-- What is left of a body when only its kind is told. -/
def Body.emptied : Body → Body
  | .none => .none
  | .text _ => .text ""
  | .json _ => .json ""

structure Response where
  status : Nat
  body : Body := .none
deriving DecidableEq, Repr

end TaskStack.Http
