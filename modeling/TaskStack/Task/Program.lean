import TaskStack.Call.Args

/-!
# Task bodies

A body looks at its bound arguments and becomes a program: a tree that ends in a value or an abort
and may call other tasks on the way, going on with what each call answered. A panic of a called task
is not answered; it ends the caller too.
-/

namespace TaskStack

inductive Program where
  | done (result : Except Abort Value)
  | call (task : String) (args : Args) (next : Except TaskError Value → Program)

abbrev Body := Bound → Program

namespace Program

def ofAbort (a : Abort) : Program := .done (.error a)

/-- Goes on with a value, unless there is none. -/
def bind {α : Type} (r : Except Abort α) (next : α → Program) : Program :=
  match r with
  | .ok a => next a
  | .error e => ofAbort e

/-- Runs a program in a state in which tasks can be called. -/
def run {σ : Type} (callTask : String → Args → σ → Except Fault Value × σ) :
    Program → σ → Except Fault Value × σ
  | .done r, s => (r.mapError Abort.fault, s)
  | .call task args next, s =>
    match callTask task args s with
    | (.ok v, s) => (next (.ok v)).run callTask s
    | (.error (.error e), s) => (next (.error e)).run callTask s
    | (.error fault, s) => (.error fault, s)

end Program
end TaskStack
