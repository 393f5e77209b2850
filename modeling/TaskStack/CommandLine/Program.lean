import TaskStack.CommandLine.Demonstration
import TaskStack.CommandLine.Invocation
import TaskStack.Registry.Client

/-!
# The program behind the command line

Runs a command line in an environment and says how it ends: what it wrote, the message or the panic
it ended with, and the exit code.
-/

namespace TaskStack.CommandLine

/-- What the program finds around it. -/
structure Environment where
  /-- The role of a run that names none. -/
  role : Option String := none
  connection : Connection

/-- How the program ends. -/
inductive Ending where
  | fine
  | misuse
  | failure (message : String)
  | panic (text : String)
deriving DecidableEq, Repr

def Ending.exitCode : Ending → Nat
  | .fine => 0
  | .misuse => 2
  | .failure _ | .panic _ => 1

structure Outcome where
  output : String := ""
  ending : Ending := .fine

def Outcome.failed (message : String) : Outcome := { ending := .failure message }

def endingOf : Option Fault → Ending
  | none => .fine
  | some (.error e) => .failure e.message
  | some (.panic text) => .panic text
  | some .tooDeep => .panic "stack overflow"

def line (s : String) : String := s ++ "\n"

/-! ## Asking the registry -/

/-- Reads everything at a path of the registry. -/
def fetch (c : Connection) (path : String) : Except String Http.Response × Connection :=
  c.send "GET" (Http.Url.ofText path) none ""

def refused (c : Connection) (path : String) (status : Nat) : String :=
  line ("Error consultando " ++ c.address ++ path ++ " (status " ++ Http.statusText status ++ ")")

/-- Fills a text with blanks up to a width. -/
def pad (width : Nat) (s : String) : String :=
  s ++ String.ofList (List.replicate (width - s.length) ' ')

def listed (e : RegisteredElement) : String :=
  line (pad 32 e.descriptor.canonicalSignature ++ " " ++
    pad 11 ((e.descriptor.implementationType.map (·.name)).getD "-") ++
    " id=" ++ e.registrationId ++ " (" ++ e.registeredAt.display ++ ")")

/-- Writes a line for every element of the registry. -/
def list (c : Connection) : Outcome × Connection :=
  match fetch c Connection.elementsPath with
  | (.error detail, c) => (.failed detail, c)
  | (.ok response, c) =>
    if Http.isSuccess response.status then
      match RegisteredElement.reader.list.all response.body.content with
      | .error _ => (.failed decodingFailure, c)
      | .ok [] => ({ output := line "No hay descriptores registrados." }, c)
      | .ok elements => ({ output := String.join (elements.map listed) }, c)
    else ({ output := refused c Connection.elementsPath response.status }, c)

def shown (e : RegisteredElement) : String :=
  line e.descriptor.report ++ line ("  - id            : " ++ e.registrationId) ++
    line ("  - registrado    : " ++ e.registeredAt.display)

/-- Where the registry keeps the element of a signature. -/
def elementPath (signature : String) : String := Connection.elementsPath ++ "/" ++ signature

/-- Writes the element under a signature. -/
def element (c : Connection) (signature : String) : Outcome × Connection :=
  match fetch c (elementPath signature) with
  | (.error detail, c) => (.failed detail, c)
  | (.ok response, c) =>
    if response.status = 404 then
      ({ output := line ("No se encontró " ++ signature ++ " en el registry") }, c)
    else if Http.isSuccess response.status then
      match RegisteredElement.ofJson response.body.content with
      | .error _ => (.failed decodingFailure, c)
      | .ok e => ({ output := shown e }, c)
    else ({ output := refused c (elementPath signature) response.status }, c)

/-! ## Running -/

/-- The name of the role of a run: the one it was given, or else that of the environment. -/
def roleName (env : Environment) (given : Option String) : String :=
  (given.or env.role).getD Role.submitter.name

def demonstrate (env : Environment) (given : Option String) (value : Int64) :
    Outcome × Connection :=
  match Role.ofText (roleName env given) with
  | .error e => (.failed e.message, env.connection)
  | .ok role =>
    let (report, c) := Demonstration.run role value env.connection
    ({ output := report.output, ending := endingOf report.fault }, c)

/-- Does what a command asks for. -/
def Invocation.perform (env : Environment) : Invocation → Outcome × Connection
  | .run role value => demonstrate env role value
  | .list => CommandLine.list env.connection
  | .element signature => CommandLine.element env.connection signature

/-- The whole program: its outcome for a command line, and the connection afterwards. -/
def program (env : Environment) (arguments : List String) : Outcome × Connection :=
  match Request.ofArguments arguments with
  | .misuse => ({ ending := .misuse }, env.connection)
  | .help text => ({ output := text }, env.connection)
  | .invocation i => i.perform env

end TaskStack.CommandLine
