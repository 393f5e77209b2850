import TaskStack.Text.Blank

/-!
# Roles of a process

A process is outside the distributed system, or it declares and submits tasks, or it runs tasks that
others submitted. It changes between the last two only by leaving the system first.
-/

namespace TaskStack

inductive Role where
  | unset
  | submitter
  | worker
deriving DecidableEq, Repr, Inhabited

namespace Role

def name : Role → String
  | .unset => "unset"
  | .submitter => "submitter"
  | .worker => "worker"

def inspect : Role → String
  | .unset => "Unset"
  | .submitter => "Submitter"
  | .worker => "Worker"

def canMoveTo (current next : Role) : Bool :=
  current == .unset || next == .unset || current == next

/-- The form in which the name of a role is looked up: without blanks at its ends, in small
letters. -/
def normalize (text : String) : String := Text.asciiLower (Text.trim text)

/-- The role that a text names. -/
def ofText? (text : String) : Option Role :=
  let name := normalize text
  if name = "unset" ∨ name = "local" then some .unset
  else if name = "submitter" ∨ name = "master" then some .submitter
  else if name = "worker" then some .worker
  else none

theorem canMoveTo_eq_false_iff {current next : Role} :
    current.canMoveTo next = false ↔
      (current = .submitter ∧ next = .worker) ∨ (current = .worker ∧ next = .submitter) := by
  cases current <;> cases next <;> decide

end Role
end TaskStack
