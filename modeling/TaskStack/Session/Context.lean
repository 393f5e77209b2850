import TaskStack.Engine.Fleet
import TaskStack.Error

/-!
# The execution context

The role of the process and the engine that goes with it. An engine is attached when the process
becomes a submitter and detached when it leaves the system.
-/

namespace TaskStack

structure Context where
  role : Role := .unset
  engine : Option EngineId := none
deriving DecidableEq, Repr, Inhabited

namespace Context

/-- Changes the role and gives the one before. -/
def setRole (c : Context) (next : Role) : Except ContextError (Role × Context) :=
  if c.role.canMoveTo next then
    .ok (c.role, ⟨next, if next = .unset then none else c.engine⟩)
  else .error (.invalidTransition c.role next)

/-- Makes the process a submitter with the given engine, also if it was one before. -/
def startSubmitter (c : Context) (engine : EngineId) : Except ContextError Context :=
  if c.role.canMoveTo .submitter then .ok ⟨.submitter, some engine⟩
  else .error (.invalidTransition c.role .submitter)

def startWorker (c : Context) : Except ContextError Context := return (← c.setRole .worker).2

/-- Leaves the system and gives the role before. -/
def stop (c : Context) : Role × Context := (c.role, {})

def isSubmitter (c : Context) : Bool := c.role = .submitter

def isWorker (c : Context) : Bool := c.role = .worker

/-- The process is part of the distributed system. -/
def inScope (c : Context) : Bool := c.role ≠ .unset

def inspect (c : Context) : String :=
  Inspect.record "ExecutionContext"
    [("role", c.role.inspect), ("engine", Inspect.bool c.engine.isSome)]

end Context
end TaskStack
