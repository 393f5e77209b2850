import TaskStack.Http.MediaType
import TaskStack.Http.Message
import TaskStack.Http.Url
import TaskStack.Registry.Basic

/-!
# The registry behind its routes

Which requests the registry answers: whether it is up, one element by its signature, all elements,
and a descriptor that is handed in. A route matches a path segment by segment; the segment of a
signature is decoded, and must not be empty.
-/

namespace TaskStack.Registry

open Http

inductive Route where
  | health
  | elements
  /-- The last segment of the path, as it was sent. -/
  | element (segment : List Char)
deriving DecidableEq, Repr

def elementsPath : List (List Char) := ["api".toList, "v1".toList, "core-elements".toList]

/-- Parts a path at every slash. -/
def pathSegments : List Char → List (List Char)
  | [] => [[]]
  | c :: rest =>
    if c = '/' then [] :: pathSegments rest
    else match pathSegments rest with
      | [] => [[c]]
      | s :: more => (c :: s) :: more

/-- A character of the word that an address begins with. -/
def isSchemeChar (c : Char) : Bool := c.isAlphanum || "+-.".toList.contains c

/-- A whole address from its path on: what stands behind its scheme and its host. -/
def afterHost? (cs : List Char) : Option (List Char) :=
  match cs.dropWhile isSchemeChar with
  | ':' :: '/' :: '/' :: rest =>
    let inHost c := !("/?#".toList.contains c)
    if (rest.takeWhile inHost).isEmpty then none else some (rest.dropWhile inHost)
  | _ => none

/-- The path of a request, without query and fragment. -/
def pathOf (target : String) : List Char :=
  ((afterHost? target.toList).getD target.toList).takeWhile fun c => c != '?' && c != '#'

def route? (target : String) : Option Route :=
  match pathSegments (pathOf target) with
  | [] :: segments =>
    if segments = ["health".toList] then some .health
    else if segments = elementsPath then some .elements
    else if segments.dropLast = elementsPath then
      match segments.getLast? with
      | some s => if s.isEmpty then none else some (.element s)
      | none => none
    else none
  | _ => none

def refusal : Refusal → Response
  | .invalid reason => ⟨422, .json (error reason)⟩
  | .conflict reason => ⟨409, .json (error reason)⟩
  | .poisoned => ⟨500, .json (error "estado interno envenenado")⟩
where
  error (reason : String) : String :=
    String.ofList (Json.writeObject [("error", Json.quote reason)])

/-- Takes in the descriptor of a body. What follows the descriptor in the body does not matter. -/
def accept (r : Registry) (stamp : Stamp) (request : Request) : Response × Registry :=
  if !(request.contentType.any MediaType.isJson) then (⟨415, .none⟩, r)
  else match TaskDescriptor.reader.leading request.body with
    | .error .mismatched => (⟨422, .none⟩, r)
    | .error _ => (⟨400, .none⟩, r)
    | .ok d =>
      match r.register stamp d with
      | (.error e, r) => (refusal e, r)
      | (.ok (element, created), r) =>
        let answer : RegistrationResponse :=
          ⟨element.registrationId, element.descriptor.canonicalSignature, created⟩
        (⟨if created then 201 else 200, .json answer.json⟩, r)

def answerList (r : Registry) : Response :=
  match r.list with
  | .error e => refusal e
  | .ok elements =>
    ⟨200, .json (String.ofList (Json.writeArray (elements.map RegisteredElement.write)))⟩

def answerElement (r : Registry) (segment : List Char) : Response :=
  match decode? segment with
  | none => ⟨400, .none⟩
  | some signature =>
    match r.get signature with
    | .error e => refusal e
    | .ok none => ⟨404, .none⟩
    | .ok (some e) => ⟨200, .json e.json⟩

/-- Answers a request for the sake of its headers alone, which tell the kind of the body. -/
def headOnly (response : Response) : Response := { response with body := response.body.emptied }

example : route? "http://host:80/health?x" = some .health := by decide +kernel
example : route? "health" = none ∧ route? "/health/" = none := by decide +kernel

/-- Answers a request. -/
def handle (r : Registry) (stamp : Stamp) (request : Request) : Response × Registry :=
  match route? request.target with
  | none => (⟨404, .none⟩, r)
  | some .elements =>
    if request.method = "POST" then r.accept stamp request
    else reading r.answerList
  | some .health => reading ⟨200, .text "ok"⟩
  | some (.element segment) => reading (r.answerElement segment)
where
  reading (response : Response) : Response × Registry :=
    if request.method = "GET" then (response, r)
    else if request.method = "HEAD" then (headOnly response, r)
    else (⟨405, .none⟩, r)

end TaskStack.Registry
