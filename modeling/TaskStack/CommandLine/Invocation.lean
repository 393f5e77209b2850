import TaskStack.CommandLine.Help
import TaskStack.Integer.Bounded

/-!
# Reading the command line

Which command a list of arguments asks for. Arguments are gone through from left to right, and a
request for help counts as soon as it is met. An option takes its value after an equals sign or from
the next argument, which then must not look like an option, and stands once at most. After two
hyphens every argument stands for itself.
-/

namespace TaskStack.CommandLine

/-- What the program is asked to do. -/
inductive Invocation where
  | run (role : Option String) (value : Int64)
  | list
  | element (signature : String)
deriving DecidableEq, Repr

/-- What a command line comes to. -/
inductive Request where
  | invocation (i : Invocation)
  | help (text : String)
  | misuse
deriving DecidableEq, Repr

/-- The forms of an argument. -/
inductive Argument where
  | separator
  | long (name : String) (value : Option String)
  | short (letters : List Char)
  | plain (text : String)
deriving DecidableEq, Repr

namespace Argument

/-- A single hyphen is plain. -/
def ofText (text : String) : Argument :=
  match text.toList with
  | ['-', '-'] => .separator
  | '-' :: '-' :: rest =>
    .long (String.ofList (rest.takeWhile (· != '=')))
      ((rest.dropWhile (· != '=')).tail?.map String.ofList)
  | '-' :: c :: rest => .short (c :: rest)
  | _ => .plain text

/-- Asks for help. Of letters that stand together the first decides. -/
def isHelp : Argument → Bool
  | .long "help" none => true
  | .short ('h' :: _) => true
  | _ => false

def isPlain : Argument → Bool
  | .plain _ => true
  | _ => false

end Argument

/-- The options of a run that were met so far. -/
structure RunOptions where
  role : Option String := none
  value : Option Int64 := none

namespace RunOptions

def defaultValue : Int64 := 4

/-- Sets an option that was not met before. -/
def set (o : RunOptions) (name text : String) : Option RunOptions :=
  if name = "role" ∧ o.role.isNone then some { o with role := some text }
  else if name = "value" ∧ o.value.isNone then
    (Int64.ofText? text).map fun n => { o with value := some n }
  else none

def request (o : RunOptions) : Request :=
  .invocation (.run o.role (o.value.getD defaultValue))

/-- Reads the arguments of a run. -/
def read (o : RunOptions) : List String → Request
  | [] => o.request
  | arg :: rest =>
    if (Argument.ofText arg).isHelp then .help Help.run
    else match Argument.ofText arg, rest with
      | .separator, [] => o.request
      | .long name (some text), rest => (o.set name text).elim .misuse (·.read rest)
      | .long name none, text :: rest =>
        if (Argument.ofText text).isPlain then (o.set name text).elim .misuse (·.read rest)
        else .misuse
      | _, _ => .misuse

end RunOptions

/-- Reads the arguments of a command that takes none. -/
def readNothing (request : Request) (help : String) : List String → Request
  | [] => request
  | arg :: rest =>
    if (Argument.ofText arg).isHelp then .help help
    else if Argument.ofText arg = .separator ∧ rest = [] then request
    else .misuse

/-- Reads the arguments of a command that takes a signature. -/
def readSignature : List String → Request
  | [] => .misuse
  | arg :: rest =>
    match Argument.ofText arg, rest with
    | .plain signature, rest => readNothing (.invocation (.element signature)) Help.element rest
    | .separator, [signature] => .invocation (.element signature)
    | a, _ => if a.isHelp then .help Help.element else .misuse

/-- Reads the names of commands whose help is asked for. -/
def readTopic : List String → Request
  | [] => .help Help.overview
  | ["run"] => .help Help.run
  | ["list"] => .help Help.list
  | ["show"] => .help Help.element
  | ["help"] => .help Help.help
  | _ => .misuse

/-- What a list of arguments asks for. -/
def Request.ofArguments : List String → Request
  | [] => .misuse
  | "run" :: rest => RunOptions.read {} rest
  | "list" :: rest => readNothing (.invocation .list) Help.list rest
  | "show" :: rest => readSignature rest
  | "help" :: rest => readTopic rest
  | arg :: _ => if (Argument.ofText arg).isHelp then .help Help.overview else .misuse

example : Request.ofArguments ["run", "--value=-7"] = .invocation (.run none (-7)) := by
  decide +kernel
example : Request.ofArguments ["run", "--value", "-7"] = .misuse := by decide +kernel
example : Request.ofArguments ["show", "--", "-h"] = .invocation (.element "-h") := by
  decide +kernel
example : Request.ofArguments ["run", "-h", "nada"] = .help Help.run := by decide +kernel

end TaskStack.CommandLine
