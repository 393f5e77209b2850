import TaskStack.Session.Command

/-!
# A call goes down to its body

Before its body runs, a call has its descriptor handed over, passes through its layers and is
submitted to the engine. After the body nothing more happens: the layers only put back the arguments
that they were given. So a call is the way down to its body, and then the run of the body; and other
calls begin nowhere but in bodies.

**Calls.** `callsWithin` lists the calls that a call leads to, itself the first, each with the
session in which it begins. It follows the same way: down to the body, and through the body from
call to call.

**Theorem (`callInScope_eq_enter`).** A call ends as its body does, run in the session in which the
way down has left it, or on the way.

* `passLayers_eq_descend`, `innermost_eq_land`: the parts of the way.
-/

namespace TaskStack

/-- The calls that a run of a program leads to, if the calls that each call leads to are known. -/
def Program.calls {σ α : Type} (callTask : String → Args → σ → Except Fault Value × σ)
    (callsOf : String → Args → σ → List α) : Program → σ → List α
  | .done _, _ => []
  | .call task args next, s =>
    callsOf task args s ++
      match callTask task args s with
      | (.ok v, s) => (next (.ok v)).calls callTask callsOf s
      | (.error (.error e), s) => (next (.error e)).calls callTask callsOf s
      | (.error _, _) => []

namespace Session

/-! ## The way down -/

/-- The way through layers, from the one at the given place on. It gives the arguments below the
last one, unless a layer fails. -/
def descend (id : TaskId) (info : TaskInfo) (scope : Scope) :
    Nat → List Layer → Args → Session → Except Fault Args × Session
  | _, [], args, s => (.ok args, s)
  | index, layer :: rest, args, s =>
    match s.beforeLayer id info scope index layer args with
    | (.error fault, _, s) => (.error fault, s)
    | (.ok (), args, s) => descend id info scope (index + 1) rest (layer.mark args) s

/-- The hand-over at the beginning of a call. It gives the descriptor that the call carries, if it
is one of a submitter. -/
def present (s : Session) (id : TaskId) (t : Task) :
    Except Fault (Option TaskDescriptor) × Session :=
  match s.scope.role with
  | .submitter =>
    let (answer, s') := s.ensureRegistered id t s.scope
    (answer.map some, s')
  | _ => (.ok none, s)

/-- The layers that a call passes through: outside the system there are none. -/
def passed (role : Role) (layers : List Layer) : List Layer :=
  match role with
  | .unset => []
  | _ => layers

/-- The way of a call through its hand-over and its layers. It gives the descriptor that the call
carries and the arguments below the layers. -/
def approach (s : Session) (id : TaskId) (t : Task) (args : Args) :
    Except Fault (Option TaskDescriptor × Args) × Session :=
  match s.present id t with
  | (.error fault, s') => (.error fault, s')
  | (.ok descriptor, s') =>
    let layers := passed s.scope.role t.declaration.layers
    match descend id t.declaration.info s.scope 0 layers args s' with
    | (.error fault, s') => (.error fault, s')
    | (.ok args, s') => (.ok (descriptor, args), s')

/-- Where the way of a call ends: with a result, or in a body. -/
inductive Landing where
  | ended (result : Except Fault Value)
  | body (program : Program)

/-- The end of the way: a submission, if there is a descriptor to submit to, and the body. -/
def land (id : TaskId) (d : Declaration) (scope : Scope) (descriptor : Option TaskDescriptor)
    (args : Args) (s : Session) : Landing × Session :=
  match scope.role, descriptor with
  | .submitter, some descriptor =>
    match scope.engine with
    | none => (.ended (.error (.error (.handoff .noEngine))), s)
    | some engine =>
      let (admission, fleet) :=
        s.fleet.submit engine (.task id) descriptor d.info.schema args
      match admission with
      | .settled result => (.ended result, { s with fleet })
      | .run => beginBody { s with fleet }
  | _, _ => beginBody s
where
  beginBody (s : Session) : Landing × Session :=
    (.body (d.body (Bound.of d.info.schema args.withoutMarkers)),
      { s with fleet := s.fleet.log (.body id scope.role) })

/-- The whole way of a call. -/
def enter (s : Session) (id : TaskId) (t : Task) (args : Args) : Landing × Session :=
  match s.approach id t args with
  | (.error fault, s') => (.ended (.error fault), s')
  | (.ok (descriptor, args), s') => land id t.declaration s.scope descriptor args s'

/-- The result of a call from where its way has ended. -/
def Landing.finish (callTask : String → Args → Session → Except Fault Value × Session) :
    Landing → Session → Except Fault Value × Session
  | .ended result, s => (result, s)
  | .body program, s => program.run callTask s

section

variable {callTask : String → Args → Session → Except Fault Value × Session}

theorem innermost_eq_land (id : TaskId) (d : Declaration) (scope : Scope)
    (descriptor : Option TaskDescriptor) (args : Args) (s : Session) :
    innermost callTask id d scope descriptor args s =
      (land id d scope descriptor args s).1.finish callTask
        (land id d scope descriptor args s).2 := by
  obtain ⟨role, engine⟩ := scope
  cases role with
  | submitter =>
    cases descriptor with
    | none => rfl
    | some x =>
      cases engine with
      | none => rfl
      | some engine =>
        simp only [innermost, land]
        rcases s.fleet.submit engine (.task id) x d.info.schema args with ⟨admission, fleet⟩
        cases admission <;> rfl
  | unset => rfl
  | worker => rfl

/-- Layers put back the arguments and do nothing else on the way up. -/
theorem passLayers_eq_descend (id : TaskId) (info : TaskInfo) (scope : Scope)
    (inner : Args → Session → Except Fault Value × Session) (index : Nat) (layers : List Layer)
    (args : Args) (s : Session) :
    ((passLayers id info scope inner index layers args s).1,
      (passLayers id info scope inner index layers args s).2.2) =
      match descend id info scope index layers args s with
      | (.error fault, s) => (.error fault, s)
      | (.ok args, s) => inner args s := by
  induction layers generalizing index args s with
  | nil => rfl
  | cons layer rest ih =>
    rw [passLayers, descend]
    generalize s.beforeLayer id info scope index layer args = answer
    obtain ⟨fault | u, args', s'⟩ := answer
    · rfl
    · exact ih (index + 1) (layer.mark args') s'

/-- **A call is the way down to its body, and then the run of the body.** -/
theorem callInScope_eq_enter (id : TaskId) (t : Task) (args : Args) (s : Session) :
    callInScope callTask id t s.scope args s =
      (s.enter id t args).1.finish callTask (s.enter id t args).2 := by
  have hthrough (descriptor : Option TaskDescriptor) (s' : Session) :
      callInScope.through callTask id s.scope args t.declaration descriptor s' =
        match descend id t.declaration.info s.scope 0 t.declaration.layers args s' with
        | (.error fault, s) => (.error fault, s)
        | (.ok args, s') => innermost callTask id t.declaration s.scope descriptor args s' :=
    passLayers_eq_descend ..
  unfold callInScope enter approach present
  cases hrole : s.scope.role with
  | unset =>
    have hland : innermost callTask id t.declaration s.scope none args s = _ :=
      innermost_eq_land ..
    simp only [innermost, hrole] at hland
    exact hland
  | worker =>
    simp only [hthrough, passed]
    rcases descend id t.declaration.info s.scope 0 t.declaration.layers args s with
      ⟨fault | args', s'⟩
    · rfl
    · exact innermost_eq_land ..
  | submitter =>
    dsimp only
    rcases s.ensureRegistered id t s.scope with ⟨fault | x, s'⟩
    · rfl
    · simp only [hthrough, passed, Except.map]
      rcases descend id t.declaration.info s.scope 0 t.declaration.layers args s' with
        ⟨fault | args', s''⟩
      · rfl
      · exact innermost_eq_land ..

end

/-! ## The calls of a run -/

/-- A call of a declared task: the task as it was, and the session in which the call began. -/
structure Call where
  id : TaskId
  task : Task
  args : Args
  session : Session

/-- The calls that a call of a task leads to, itself the first. -/
def callsWithin : Nat → TaskId → Args → Session → List Call
  | 0, _, _, _ => []
  | depth + 1, id, args, s =>
    match s.task? id with
    | none => []
    | some t =>
      ⟨id, t, args, s⟩ ::
        match s.enter id t args with
        | (.ended _, _) => []
        | (.body program, s) =>
          program.calls (callNamed (callWithin depth)) (callsNamed (callsWithin depth)) s
where
  /-- The calls that a call of the task of a name leads to. -/
  callsNamed (callsOf : TaskId → Args → Session → List Call) (name : String) (args : Args)
      (s : Session) : List Call :=
    match s.names.get? name with
    | none => []
    | some id => callsOf id args s

/-- The calls that a command leads to. -/
def callsOf (s : Session) : Command → List Call
  | .call task args depth => callsWithin depth task args s
  | _ => []

end Session
end TaskStack
