import TaskStack.Session.Call

/-!
# What is done to a session

A session changes through commands: engines are brought along, the role changes, tasks are declared
and called. Each command has a function that also gives its result; `Session.perform` is the state
that a command leaves, `Session.performAll` a whole history. Engines can also be asked directly, on
nobody's account (`Session.register`, `Session.submit`).
-/

namespace TaskStack

/-- Something that is done to a session. A call says how deep the calls in it may nest. -/
inductive Command where
  | addEngine (e : Engine)
  | setRole (next : Role)
  | startSubmitter (engine : EngineId)
  | startWorker
  | stop
  | declare (name : String) (d : Declaration)
  | call (task : TaskId) (args : Args) (depth : Nat := Session.nestingLimit)

namespace Session

def addEngine (s : Session) (e : Engine) : EngineId × Session :=
  let (id, fleet) := s.fleet.add e
  (id, { s with fleet })

/-- Changes the role and gives the one before. -/
def setRole (s : Session) (next : Role) : Except ContextError Role × Session :=
  match s.context.setRole next with
  | .ok (previous, context) => (.ok previous, { s with context })
  | .error e => (.error e, s)

def moveTo (s : Session) (c : Except ContextError Context) : Except ContextError Unit × Session :=
  match c with
  | .ok context => (.ok (), { s with context })
  | .error e => (.error e, s)

def startSubmitter (s : Session) (engine : EngineId) : Except ContextError Unit × Session :=
  s.moveTo (s.context.startSubmitter engine)

def startWorker (s : Session) : Except ContextError Unit × Session :=
  s.moveTo s.context.startWorker

/-- Leaves the system and gives the role before. -/
def stop (s : Session) : Role × Session :=
  let (previous, context) := s.context.stop
  (previous, { s with context })

/-- Adds a declared task and lets a name lead to it. -/
def declare (s : Session) (name : String) (d : Declaration) : TaskId × Session :=
  let id := s.tasks.length
  (id, { s with tasks := s.tasks ++ [.new d], names := s.names.insert name id })

/-- The session after a command. -/
def perform (s : Session) : Command → Session
  | .addEngine e => (s.addEngine e).2
  | .setRole next => (s.setRole next).2
  | .startSubmitter engine => (s.startSubmitter engine).2
  | .startWorker => s.startWorker.2
  | .stop => s.stop.2
  | .declare name d => (s.declare name d).2
  | .call task args depth => (callWithin depth task args s).2

/-- The session after a history of commands. -/
def performAll (s : Session) (commands : List Command) : Session := commands.foldl perform s

/-! ## Looking at a session and at its engines -/

/-- The task that a name leads to. -/
def named? (s : Session) (name : String) : Option Task := (s.names.get? name).bind s.task?

/-- The descriptor that was handed over for the task of a name, and the layer that made it. -/
def registered? (s : Session) (name : String) : Option Registered :=
  (s.named? name).bind (·.registration.registered?)

def engine? (s : Session) (id : EngineId) : Option Engine := s.fleet.engines[id]?

/-- Calls the task that a name leads to. -/
def callByName (s : Session) (name : String) (args : Args) : Except Fault Value × Session :=
  callNamed (fun id args s => s.call id args) name args s

/-- Calls of one task, one after another. -/
def callEach (s : Session) (name : String) : List Args → List (Except Fault Value) × Session
  | [] => ([], s)
  | args :: rest =>
    let (result, s) := s.callByName name args
    let (results, s) := s.callEach name rest
    (result :: results, s)

/-- Hands a descriptor to an engine. -/
def register (s : Session) (engine : EngineId) (d : TaskDescriptor) : Except Fault Unit × Session :=
  let (answer, fleet) := s.fleet.register engine .other d
  (answer, { s with fleet })

/-- Submits a call of a body to an engine. -/
def submit (s : Session) (engine : EngineId) (d : TaskDescriptor) (schema : Schema) (args : Args)
    (body : Body) : Except Fault Value × Session :=
  let (admission, fleet) := s.fleet.submit engine .other d schema args
  let s := { s with fleet }
  match admission with
  | .settled result => (result, s)
  | .run =>
    (body (Bound.of schema args.withoutMarkers)).run
      (fun name args s => s.callByName name args) s

end Session
end TaskStack
