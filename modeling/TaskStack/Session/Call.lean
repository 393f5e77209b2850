import TaskStack.Session.Basic

/-!
# Calls

A call of a declared task begins by looking at the role of the process. Outside the system the body
runs as it is. In a submitter the descriptor of the task is handed over first, unless it was; then
the call passes through the layers, the outermost first, and ends in a submission to the engine. A
worker passes through the layers too, hands over nothing, and runs the body.

Bodies may call tasks. How deep such calls may nest is a bound of the call; a call that would nest
deeper ends with `Fault.tooDeep`.

- `Session.ensureRegistered`: the hand-over, at most once
- `Session.passLayers`: the way through the layers
- `Session.callWithin`: a whole call
-/

namespace TaskStack.Session

def poisonedRegistration : Fault := .error (.handoff (.poisoned "registro de la tarea"))

/-- Makes sure that the descriptor of a task is handed over, and gives it. A descriptor is made anew
for each attempt; what counts is only whether one was taken. -/
def ensureRegistered (s : Session) (id : TaskId) (t : Task) (scope : Scope) :
    Except Fault TaskDescriptor × Session :=
  match t.registration with
  | .poisoned => (.error poisonedRegistration, s)
  | .done r => (.ok r.descriptor, s)
  | .pending =>
    match scope.engine with
    | none => (.error (.error (.handoff .noEngine)), s)
    | some engine =>
      match Declaration.describe t.declaration.info t.declaration.layers with
      | .error e => (.error (.error e), s)
      | .ok r =>
        let (answer, fleet) := s.fleet.register engine (.task id) r.descriptor
        let s := { s with fleet }
        match answer with
        | .ok () => (.ok r.descriptor, s.setTask id { t with registration := .done r })
        | .error (.panic text) =>
          (.error (.panic text), s.setTask id { t with registration := .poisoned })
        | .error fault => (.error fault, s)

/-- Passes a call through the layer of a task at the given place, before the layers below it. -/
def beforeLayer (s : Session) (id : TaskId) (info : TaskInfo) (scope : Scope) (index : Nat)
    (layer : Layer) (args : Args) : Except Fault Unit × Args × Session :=
  match layer, s.task? id with
  | .transformation specs, some t =>
    let passage : Passage := ⟨info, scope, id, index⟩
    let (result, passing) :=
      passage.beforeCall specs ⟨args, t.derivedAt index, s.fleet⟩
    (result, passing.args,
      { s with fleet := passing.fleet }.setTask id (t.setDerived index passing.derived))
  | .custom c, _ =>
    let (result, args) := c.beforeCall info scope.role args
    (result, args, s)
  | _, _ => (.ok (), args, s)

/-- Runs a body on arguments without their markers. -/
def runBody (callTask : String → Args → Session → Except Fault Value × Session) (id : TaskId)
    (d : Declaration) (role : Role) (args : Args) (s : Session) : Except Fault Value × Session :=
  (d.body (Bound.of d.info.schema args.withoutMarkers)).run callTask
    { s with fleet := s.fleet.log (.body id role) }

/-- The end of the way through the layers: a submission, if there is a descriptor to submit to, and
else the body. -/
def innermost (callTask : String → Args → Session → Except Fault Value × Session) (id : TaskId)
    (d : Declaration) (scope : Scope) (descriptor : Option TaskDescriptor) (args : Args)
    (s : Session) : Except Fault Value × Session :=
  match scope.role, descriptor with
  | .submitter, some descriptor =>
    match scope.engine with
    | none => (.error (.error (.handoff .noEngine)), s)
    | some engine =>
      let (admission, fleet) :=
        s.fleet.submit engine (.task id) descriptor d.info.schema args
      let s := { s with fleet }
      match admission with
      | .settled result => (result, s)
      | .run => runBody callTask id d scope.role args s
  | _, _ => runBody callTask id d scope.role args s

/-- The way through layers, from the one at the given place on. The marks of a layer are on the
arguments only while the layers below it run. -/
def passLayers (id : TaskId) (info : TaskInfo) (scope : Scope)
    (inner : Args → Session → Except Fault Value × Session) :
    Nat → List Layer → Args → Session → Except Fault Value × Args × Session
  | _, [], args, s =>
    let (result, s) := inner args s
    (result, args, s)
  | index, layer :: rest, args, s =>
    match s.beforeLayer id info scope index layer args with
    | (.error fault, args, s) => (.error fault, args, s)
    | (.ok (), args, s) =>
      let ((result, s), args) := args.within layer.prepend layer.markers fun marked =>
        let (result, marked, s) := passLayers id info scope inner (index + 1) rest marked s
        ((result, s), marked)
      (result, args, s)

/-- A call in the given scope. -/
def callInScope (callTask : String → Args → Session → Except Fault Value × Session) (id : TaskId)
    (t : Task) (scope : Scope) (args : Args) (s : Session) : Except Fault Value × Session :=
  let d := t.declaration
  match scope.role with
  | .unset => runBody callTask id d .unset args s
  | .worker => through d none s
  | .submitter =>
    match s.ensureRegistered id t scope with
    | (.error fault, s) => (.error fault, s)
    | (.ok descriptor, s) => through d (some descriptor) s
where
  through (d : Declaration) (descriptor : Option TaskDescriptor) (s : Session) :
      Except Fault Value × Session :=
    let (result, _, s) :=
      passLayers id d.info scope (innermost callTask id d scope descriptor) 0 d.layers args s
    (result, s)

def unknownTask : Fault := .error (.execution "tarea desconocida")

/-- Calls the task that a name leads to. -/
def callNamed (callTask : TaskId → Args → Session → Except Fault Value × Session) (name : String)
    (args : Args) (s : Session) : Except Fault Value × Session :=
  match s.names.get? name with
  | none => (.error unknownTask, s)
  | some id => callTask id args s

/-- A call of a task, with calls nested at most the given number deep. -/
def callWithin : Nat → TaskId → Args → Session → Except Fault Value × Session
  | 0, _, _, s => (.error .tooDeep, s)
  | depth + 1, id, args, s =>
    match s.task? id with
    | none => (.error unknownTask, s)
    | some t => callInScope (callNamed (callWithin depth)) id t s.scope args s

/-- How deep calls may nest in a session. -/
def nestingLimit : Nat := 10000

/-- Calls a task. -/
def call (s : Session) (id : TaskId) (args : Args) : Except Fault Value × Session :=
  callWithin nestingLimit id args s

end TaskStack.Session
