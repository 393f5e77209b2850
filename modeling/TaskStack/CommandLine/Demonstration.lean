import TaskStack.Catalogue

/-!
# The demonstration run

A process takes a role, declares the catalogue and calls each of its tasks in two rounds; then it
shows what was handed over. A submitter hands descriptors to the registry at the end of a connection
and runs submitted calls itself. Whatever was written before a fault stays written.
-/

namespace TaskStack.CommandLine

/-- What a command wrote, and the fault that ended it, if one did. -/
structure Report where
  output : String := ""
  fault : Option Fault := none

namespace Demonstration

/-- A run as it goes on: the session, and the engine of a submitter. -/
structure Process where
  session : Session := {}
  engine : Option EngineId := none

def contextFault (e : ContextError) : Fault := .error (.context e)

/-- Starts a process in a role, with the catalogue declared. -/
def start (role : Role) (connection : Connection) : Except Fault Process :=
  match role with
  | .unset => .ok { session := Catalogue.declareAll {} }
  | .worker =>
    match ({} : Session).startWorker with
    | (.ok (), session) => .ok { session := Catalogue.declareAll session }
    | (.error e, _) => .error (contextFault e)
  | .submitter =>
    let (engine, session) := ({} : Session).addEngine { connection := some connection }
    match session.startSubmitter engine with
    | (.ok (), session) =>
      .ok { session := Catalogue.declareAll session, engine := some engine }
    | (.error e, _) => .error (contextFault e)

/-- The grid of a round: a value and the two after it. -/
def grid (value : Int64) : Except Abort Value := do
  let second ← Catalogue.add value 1
  let third ← Catalogue.add value 2
  .ok (.array [.int value, .int second, .int third])

/-- What the tasks answered in a round. -/
structure Answers where
  increment : Value
  solve : Value
  scale : Value

/-- Calls every task once. -/
def callTasks (s : Session) (value : Int64) : Except Fault Answers × Session :=
  match s.callByName "increment" (Args.ofPositional [.int value]) with
  | (.error fault, s) => (.error fault, s)
  | (.ok increment, s) =>
    match grid value with
    | .error abort => (.error abort.fault, s)
    | .ok grid =>
      match s.callByName "solve" (Args.ofPositional [grid]) with
      | (.error fault, s) => (.error fault, s)
      | (.ok solve, s) =>
        match s.callByName "scale" (({} : Args).setNamed "x" (.int value)) with
        | (.error fault, s) => (.error fault, s)
        | (.ok scale, s) => (.ok ⟨increment, solve, scale⟩, s)

/-- What is written about a round. -/
def describeRound (round : Nat) (value : Int64) (a : Answers) : String :=
  "Ronda " ++ toString round ++ ":\n" ++
  "  increment(" ++ toString value ++ ") = " ++ Json.text a.increment ++ "\n" ++
  "  solve([" ++ toString value ++ "..]) = " ++ Json.text a.solve ++ "\n" ++
  "  scale(" ++ toString value ++ ")     = " ++ Json.text a.scale ++ "\n"

/-- Goes through rounds up to the first that fails. -/
def rounds (value : Int64) : List Nat → Session → Report × Session
  | [], s => ({}, s)
  | round :: rest, s =>
    match callTasks s value with
    | (.error fault, s) => ({ fault := some fault }, s)
    | (.ok answers, s) =>
      let (report, s) := rounds value rest s
      ({ report with output := describeRound round value answers ++ report.output }, s)

/-- What is written about a task at the end. -/
def describeTask (role : Role) (p : Process) (d : Declaration) : String :=
  (match p.session.registered? d.info.name with
    | some r => r.descriptor.report
    | none => d.signature ++ ": sin descriptor (rol " ++ role.name ++ ")") ++ "\n" ++
  match p.engine.bind p.session.engine? with
  | some engine =>
    "  - envíos        : " ++ toString (engine.ledger.submissionCount d.signature) ++ "\n"
  | none => ""

/-- A whole run, with what is at the other end of the connection afterwards. -/
def run (role : Role) (value : Int64) (connection : Connection) : Report × Connection :=
  match start role connection with
  | .error fault => ({ fault := some fault }, connection)
  | .ok p =>
    let (report, session) := rounds value [1, 2] p.session
    let after := ((p.engine.bind session.engine?).bind (·.connection)).getD connection
    match report.fault with
    | some _ => (report, after)
    | none =>
      let tasks := Catalogue.tasks.map (describeTask role { p with session })
      ({ output := report.output ++ "\n" ++ String.join tasks }, after)

end Demonstration
end TaskStack.CommandLine
