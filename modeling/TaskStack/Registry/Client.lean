import TaskStack.Error
import TaskStack.Http.Status
import TaskStack.Registry.Server

/-!
# Handing descriptors to the registry

A descriptor is checked before it is sent. An answer that is no success becomes an error: a refusal
when the registry disagrees with the descriptor, and a transport error in every other case, both
with the reason the answer gives or else its whole body.

`Link` is what stands at the other end: a registry, something that gives one answer to everything,
or nothing.
-/

namespace TaskStack

open Http

/-- The other end of a connection. -/
inductive Link where
  | unreachable
  | answering (response : Response)
  | registry (state : Registry)
deriving DecidableEq, Repr

namespace Link

/-- Sends a request; there is no answer if nothing is at the other end. -/
def send (link : Link) (stamp : Stamp) (request : Request) : Option Response × Link :=
  match link with
  | .unreachable => (none, .unreachable)
  | .answering response => (some response, .answering response)
  | .registry state =>
    let (response, state) := state.handle stamp request
    (some response, .registry state)

end Link

/-- A connection to a registry: the address of its server, and what is there. -/
structure Connection where
  address : String
  link : Link
deriving DecidableEq, Repr

namespace Connection

def elementsPath : String := "/api/v1/core-elements"

/-- The stamp for an element that the next request creates. -/
def stamp (c : Connection) : Stamp :=
  match c.link with
  | .registry state => state.nextStamp
  | _ => ({} : Registry).nextStamp

/-- Sends a request to an address; without an answer, says what could not be sent where. -/
def send (c : Connection) (method : String) (url : Url) (contentType : Option String)
    (body : String) : Except String Response × Connection :=
  let (answer, link) := c.link.send c.stamp ⟨method, url.target, contentType, body⟩
  let result := match answer with
    | some response => .ok response
    | none => .error ("error sending request for url (" ++ c.address ++ url.text ++ ")")
  (result, { c with link })

end Connection

/-- The reason that the body of a refusal gives: its `error` if it has one, or else all of it. -/
def refusalReason (body : String) : String :=
  match Json.read body with
  | .ok v => (((v.dict?.bind (·.get? "error")).bind Value.string?)).getD body
  | .error _ => body

/-- What an answer that is no success means for a descriptor. -/
def rejection (signature : String) (status : Nat) (body : String) : HandoffError :=
  let reason := refusalReason body
  if status = 409 ∨ status = 422 then .rejected signature reason
  else .transport ("registry respondió " ++ statusText status ++ ": " ++ reason)

def decodingFailure : String := "error decoding response body"

/-- Hands a descriptor to the registry. -/
def Connection.register (c : Connection) (d : TaskDescriptor) :
    Except HandoffError Unit × Connection :=
  match d.validate with
  | .error e => (.error e, c)
  | .ok () =>
    match c.send "POST" (Url.ofText Connection.elementsPath) (some "application/json") d.json with
    | (.error detail, c) => (.error (.transport detail), c)
    | (.ok response, c) =>
      if !isSuccess response.status then
        (.error (rejection d.canonicalSignature response.status response.body.content), c)
      else match RegistrationResponse.ofJson response.body.content with
        | .ok _ => (.ok (), c)
        | .error _ => (.error (.transport decodingFailure), c)

end TaskStack
