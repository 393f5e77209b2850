import TaskStack.Engine.Ledger
import TaskStack.Registry.Client

/-!
# Engines

An engine takes descriptors and runs submitted calls. By itself it keeps descriptors in its ledger,
or hands them to a registry if it is connected to one, and runs every submission. A script can make
it answer otherwise: each word of it stands for one call of its kind, and a used-up script means
that the engine acts by itself again. So scripts stand for everything an engine can answer.
-/

namespace TaskStack

/-- What an engine answers to a descriptor; an answer may name the signature. -/
inductive RegisterReply where
  | byItself
  | answer (result : String → Except HandoffError Unit)
  | panic (text : String)

/-- What an engine answers to a submission; an answer may name the signature. -/
inductive SubmitReply where
  | byItself
  | answer (result : String → Except TaskError Value)
  | panic (text : String)

structure Engine where
  name : String := ""
  registerScript : List RegisterReply := []
  submitScript : List SubmitReply := []
  ledger : Ledger := {}
  connection : Option Connection := none

/-- What becomes of a submission: the body runs, or the engine answers without it. -/
inductive Admission where
  | run
  | settled (result : Except Fault Value)

namespace Engine

instance : Inhabited Engine := ⟨{}⟩

/-- Keeps a descriptor in the ledger, or hands it to the registry. -/
def keep (e : Engine) (d : TaskDescriptor) : Except HandoffError Unit × Engine :=
  match e.connection with
  | none =>
    let (result, ledger) := e.ledger.register d
    (result, { e with ledger })
  | some c =>
    let (result, c) := c.register d
    (result, { e with connection := some c })

def registerByReply (e : Engine) (d : TaskDescriptor) :
    RegisterReply → Except Fault Unit × Engine
  | .byItself =>
    let (result, e) := e.keep d
    (result.mapError fun h => .error (.handoff h), e)
  | .answer result =>
    ((result d.canonicalSignature).mapError fun h => .error (.handoff h), e)
  | .panic text => (.error (.panic text), e)

/-- Takes a descriptor. -/
def register (e : Engine) (d : TaskDescriptor) : Except Fault Unit × Engine :=
  match e.registerScript with
  | [] => e.registerByReply d .byItself
  | reply :: rest => { e with registerScript := rest }.registerByReply d reply

def submitByReply (e : Engine) (signature : String) (args : Args) : SubmitReply → Admission × Engine
  | .byItself => (.run, { e with ledger := e.ledger.note signature args })
  | .answer result => (.settled ((result signature).mapError .error), e)
  | .panic text => (.settled (.error (.panic text)), e)

/-- Takes a submission. -/
def submit (e : Engine) (signature : String) (args : Args) : Admission × Engine :=
  match e.submitScript with
  | [] => e.submitByReply signature args .byItself
  | reply :: rest => { e with submitScript := rest }.submitByReply signature args reply

end Engine
end TaskStack
