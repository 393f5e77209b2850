import TaskStack.Proofs.Session.Descent
import TaskStack.Proofs.Session.HandOver

/-!
# The way of a call as a dialogue

On its way down a call touches one task and asks its engine now and then. What it asks next depends
on the task, on the arguments and on the answers so far, and on nothing else of the session. So the
way is a dialogue: a tree of requests that branches over the answers and ends with the landing and
with what is remembered of the task. What holds of every path through the tree holds of every call.

**Theorem (`enter_eq_run`).** The way of a call is the dialogue of its task, run with the engines of
the session.

**Theorem (`Dialogue.Keeps.run`).** If the requests of a dialogue are within its terms, and the
engines answer within them, then it ends as its leaves say.

* `Passage.dialogue`, `Task.dialogue`: the dialogues of a layer and of a whole way.
* `Dialogue.run_bind`: one dialogue after another.
-/

namespace TaskStack

/-- Requests one after another, each depending on the answers to those before it. -/
inductive Dialogue (α : Type) where
  | done (a : α)
  | register (engine : EngineId) (origin : Origin) (d : TaskDescriptor)
    (next : Except Fault Unit → Dialogue α)
  | submit (engine : EngineId) (origin : Origin) (d : TaskDescriptor) (schema : Schema)
    (args : Args) (next : Admission → Dialogue α)
  | body (id : TaskId) (role : Role) (next : Dialogue α)

namespace Dialogue

variable {α β : Type}

/-- One dialogue after another. -/
def bind : Dialogue α → (α → Dialogue β) → Dialogue β
  | .done a, k => k a
  | .register engine origin d next, k =>
    .register engine origin d fun answer => (next answer).bind k
  | .submit engine origin d schema args next, k =>
    .submit engine origin d schema args fun admission => (next admission).bind k
  | .body id role next, k => .body id role (next.bind k)

/-- The outcome of a dialogue with engines, and the engines after it. -/
def run : Dialogue α → Fleet → α × Fleet
  | .done a, f => (a, f)
  | .register engine origin d next, f =>
    (next (f.register engine origin d).1).run (f.register engine origin d).2
  | .submit engine origin d schema args next, f =>
    (next (f.submit engine origin d schema args).1).run (f.submit engine origin d schema args).2
  | .body id role next, f => next.run (f.log (.body id role))

theorem run_bind (x : Dialogue α) (k : α → Dialogue β) (f : Fleet) :
    (x.bind k).run f = (k (x.run f).1).run (x.run f).2 := by
  induction x generalizing f with
  | done a => rfl
  | register engine origin d next ih => exact ih _ _
  | submit engine origin d schema args next ih => exact ih _ _
  | body id role next ih => exact ih _

/-! ## The terms of a dialogue -/

/-- What may be asked, and which answers are to be expected. -/
structure Terms where
  asks : EngineId → Origin → TaskDescriptor → Prop
  answers : Except Fault Unit → Prop
  admits : Admission → Prop

/-- Whatever is asked is within the terms, and under answers within the terms the dialogue ends as
it should. -/
def Keeps (T : Terms) (P : α → Prop) : Dialogue α → Prop
  | .done a => P a
  | .register engine origin d next =>
    T.asks engine origin d ∧ ∀ answer, T.answers answer → (next answer).Keeps T P
  | .submit engine origin d _ _ next =>
    T.asks engine origin d ∧ ∀ admission, T.admits admission → (next admission).Keeps T P
  | .body _ _ next => next.Keeps T P

variable {T : Terms} {P : α → Prop} {x : Dialogue α}

theorem Keeps.mono {P' : α → Prop} (h : x.Keeps T P) (hP : ∀ a, P a → P' a) : x.Keeps T P' := by
  induction x with
  | done a => exact hP a h
  | register engine origin d next ih => exact ⟨h.1, fun answer ha => ih answer (h.2 answer ha)⟩
  | submit engine origin d schema args next ih =>
    exact ⟨h.1, fun admission ha => ih admission (h.2 admission ha)⟩
  | body id role next ih => exact ih h

theorem Keeps.bind {P' : β → Prop} {k : α → Dialogue β} (h : x.Keeps T P)
    (hk : ∀ a, P a → (k a).Keeps T P') : (x.bind k).Keeps T P' := by
  induction x with
  | done a => exact hk a h
  | register engine origin d next ih => exact ⟨h.1, fun answer ha => ih answer (h.2 answer ha)⟩
  | submit engine origin d schema args next ih =>
    exact ⟨h.1, fun admission ha => ih admission (h.2 admission ha)⟩
  | body id role next ih => exact ih h

/-- **A dialogue within its terms ends as it should,** if the engines keep to the terms. -/
theorem Keeps.run {I : Fleet → Prop} (h : x.Keeps T P)
    (hregister : ∀ f engine o d, I f → T.asks engine o d →
      T.answers (f.register engine o d).1 ∧ I (f.register engine o d).2)
    (hsubmit : ∀ f engine o d schema args, I f → T.asks engine o d →
      T.admits (f.submit engine o d schema args).1 ∧ I (f.submit engine o d schema args).2)
    (hbody : ∀ f id role, I f → I (f.log (.body id role))) {f : Fleet} (hf : I f) :
    P (x.run f).1 ∧ I (x.run f).2 := by
  induction x generalizing f with
  | done a => exact ⟨h, hf⟩
  | register engine origin d next ih =>
    obtain ⟨hanswer, hafter⟩ := hregister f engine origin d hf h.1
    exact ih _ (h.2 _ hanswer) hafter
  | submit engine origin d schema args next ih =>
    obtain ⟨hadmission, hafter⟩ := hsubmit f engine origin d schema args hf h.1
    exact ih _ (h.2 _ hadmission) hafter
  | body id role next ih => exact ih h (hbody f id role hf)

end Dialogue

/-! ## The dialogue of a layer -/

namespace Passage

variable (p : Passage)

/-- The hand-over of a derived descriptor. -/
def askDerived (engine : EngineId) (param : String) (x : Derived) :
    Dialogue (Except Fault TaskDescriptor × Derived) :=
  if x.poisoned then .done (.error (.error (.handoff (.poisoned "transformaciones derivadas"))), x)
  else match x.descriptors.get? param with
    | some d => .done (.ok d, x)
    | none =>
      let d := Derived.descriptor p.info param
      .register engine (p.origin param) d fun answer =>
        .done (answer.map fun _ => d, x.after param d answer)

/-- What a transformation makes of a value. -/
def askTransform (t : Transform) (v : Value) (x : Derived) :
    Dialogue (Except Fault Value × Derived) :=
  if t.workflow then .done ((t.apply v).mapError Abort.fault, x)
  else match p.scope.engine with
    | none => .done (.error (.error (.handoff .noEngine)), x)
    | some engine => (p.askDerived engine t.param x).bind fun
      | (.error fault, x) => .done (.error fault, x)
      | (.ok d, x) =>
        let args := Args.ofPositional [v]
        .submit engine (p.origin t.param) d Derived.schema args fun
          | .settled result => .done (result, x)
          | .run => .done ((Derived.body t (Bound.of Derived.schema args.withoutMarkers)).mapError
              Abort.fault, x)

/-- Transformations one after another. -/
def askSubstitute : List Transform → Args → Derived → Dialogue (Except Fault Unit × Args × Derived)
  | [], args, x => .done (.ok (), args, x)
  | t :: rest, args, x =>
    match args.locate p.info.schema t.param with
    | none => .done
      (.error (.error (.definition (.unknownParameter t.param p.info.qualifiedName))), args, x)
    | some (site, v) => (p.askTransform t v x).bind fun
      | (.error fault, x) => .done (.error fault, args, x)
      | (.ok w, x) => askSubstitute rest (args.replace site t.param w) x

/-- The whole step through a transformation layer. -/
def dialogue (specs : List Transform) (args : Args) (x : Derived) :
    Dialogue (Except Fault Unit × Args × Derived) :=
  let brought := args.transforms
  let args := { args with transforms := [] }
  if p.scope.role ≠ .submitter then .done (.ok (), args, x)
  else
    let inForce := if brought.isEmpty then specs else brought
    if inForce.isEmpty then
      .done (.error (.error (.definition (.missingTransform p.info.qualifiedName))), args, x)
    else p.askSubstitute inForce args x

theorem ensureDerived_eq_run (engine : EngineId) (param : String) (x : Passing) :
    p.ensureDerived engine param x =
      let r := (p.askDerived engine param x.derived).run x.fleet
      (r.1.1, { x with derived := r.1.2, fleet := r.2 }) := by
  cases hp : x.derived.poisoned with
  | true =>
    rw [ensureDerived, askDerived, if_pos hp, if_pos hp]
    rfl
  | false =>
    cases hd : x.derived.descriptors.get? param with
    | some d =>
      rw [ensureDerived, askDerived, if_neg (by simp [hp]), if_neg (by simp [hp]), hd]
      rfl
    | none =>
      rw [ensureDerived_of_new _ _ hp hd, askDerived, if_neg (by simp [hp]), hd]
      rfl

theorem transform_eq_run (t : Transform) (v : Value) (x : Passing) :
    p.transform t v x =
      let r := (p.askTransform t v x.derived).run x.fleet
      (r.1.1, { x with derived := r.1.2, fleet := r.2 }) := by
  unfold transform askTransform
  split
  · rfl
  · unfold submitDerived
    cases p.scope.engine with
    | none => rfl
    | some engine =>
      simp only [ensureDerived_eq_run, Dialogue.run_bind]
      rcases (p.askDerived engine t.param x.derived).run x.fleet with ⟨⟨fault | d, y⟩, f⟩
      · rfl
      · simp only [Dialogue.run]
        rcases f.submit engine (p.origin t.param) d Derived.schema (Args.ofPositional [v]) with
          ⟨admission, f'⟩
        cases admission <;> rfl

theorem substitute_eq_run (ts : List Transform) (x : Passing) :
    p.substitute ts x =
      let r := (p.askSubstitute ts x.args x.derived).run x.fleet
      (r.1.1, ⟨r.1.2.1, r.1.2.2, r.2⟩) := by
  induction ts generalizing x with
  | nil => rfl
  | cons t rest ih =>
    rw [substitute, askSubstitute]
    cases x.args.locate p.info.schema t.param with
    | none => rfl
    | some found =>
      obtain ⟨site, v⟩ := found
      simp only [transform_eq_run, Dialogue.run_bind]
      rcases (p.askTransform t v x.derived).run x.fleet with ⟨⟨fault | w, y⟩, f⟩
      · rfl
      · exact ih _

theorem beforeCall_eq_run (specs : List Transform) (x : Passing) :
    p.beforeCall specs x =
      let r := (p.dialogue specs x.args x.derived).run x.fleet
      (r.1.1, ⟨r.1.2.1, r.1.2.2, r.2⟩) := by
  unfold beforeCall dialogue
  dsimp only
  split
  · rfl
  · generalize (if x.args.transforms.isEmpty then specs else x.args.transforms) = inForce
    split
    · rfl
    · exact substitute_eq_run ..

end Passage

/-! ## The dialogue of a call -/

namespace Task

/-- What a layer does to a call. -/
def askLayer (id : TaskId) (info : TaskInfo) (scope : Scope) (index : Nat) (layer : Layer)
    (args : Args) (t : Task) : Dialogue (Except Fault Unit × Args × Task) :=
  match layer with
  | .transformation specs =>
    ((⟨info, scope, id, index⟩ : Passage).dialogue specs args (t.derivedAt index)).bind fun r =>
      .done (r.1, r.2.1, t.setDerived index r.2.2)
  | .custom c =>
    .done ((c.beforeCall info scope.role args).1, (c.beforeCall info scope.role args).2, t)
  | _ => .done (.ok (), args, t)

/-- The way through layers. -/
def askLayers (id : TaskId) (info : TaskInfo) (scope : Scope) :
    Nat → List Layer → Args → Task → Dialogue (Except Fault Args × Task)
  | _, [], args, t => .done (.ok args, t)
  | index, layer :: rest, args, t => (askLayer id info scope index layer args t).bind fun
    | (.error fault, _, t) => .done (.error fault, t)
    | (.ok (), args, t) => askLayers id info scope (index + 1) rest (layer.mark args) t

/-- The hand-over of the descriptor, in a submitter. -/
def askRegistration (id : TaskId) (scope : Scope) (t : Task) :
    Dialogue (Except Fault (Option TaskDescriptor) × Task) :=
  match scope.role with
  | .submitter =>
    match t.registration with
    | .poisoned => .done (.error Session.poisonedRegistration, t)
    | .done r => .done (.ok (some r.descriptor), t)
    | .pending =>
      match scope.engine with
      | none => .done (.error (.error (.handoff .noEngine)), t)
      | some engine =>
        match Declaration.describe t.declaration.info t.declaration.layers with
        | .error e => .done (.error (.error e), t)
        | .ok r => .register engine (.task id) r.descriptor fun answer =>
          .done (answer.map fun _ => some r.descriptor, { t with registration := .after r answer })
  | _ => .done (.ok none, t)

/-- The end of the way: a submission, if there is a descriptor to submit to, and the body. -/
def askLanding (id : TaskId) (d : Declaration) (scope : Scope) (descriptor : Option TaskDescriptor)
    (args : Args) : Dialogue Session.Landing :=
  match scope.role, descriptor with
  | .submitter, some descriptor =>
    match scope.engine with
    | none => .done (.ended (.error (.error (.handoff .noEngine))))
    | some engine => .submit engine (.task id) descriptor d.info.schema args fun
      | .settled result => .done (.ended result)
      | .run => begun
  | _, _ => begun
where
  begun : Dialogue Session.Landing :=
    .body id scope.role (.done (.body (d.body (Bound.of d.info.schema args.withoutMarkers))))

/-- **The dialogue of a call,** from the hand-over to the landing, with what is remembered of the
task after it. -/
def dialogue (id : TaskId) (scope : Scope) (args : Args) (t : Task) :
    Dialogue (Session.Landing × Task) :=
  (askRegistration id scope t).bind fun
    | (.error fault, t') => .done (.ended (.error fault), t')
    | (.ok descriptor, t') =>
      (askLayers id t.declaration.info scope 0 (Session.passed scope.role t.declaration.layers) args
          t').bind fun
        | (.error fault, t') => .done (.ended (.error fault), t')
        | (.ok args, t') => (askLanding id t.declaration scope descriptor args).bind fun landing =>
          .done (landing, t')

end Task

namespace Session

variable {s : Session} {id : TaskId} {t : Task}

/-- The session with other engines and another state of one task. -/
def after (s : Session) (id : TaskId) (t : Task) (fleet : Fleet) : Session :=
  { s with fleet }.setTask id t

theorem task?_after (ht : s.task? id = some t) (t' : Task) (f : Fleet) :
    (s.after id t' f).task? id = some t' :=
  task?_setTask_self (s := { s with fleet := f }) ht t'

theorem after_self (ht : s.task? id = some t) (f : Fleet) :
    s.after id t f = { s with fleet := f } :=
  setTask_eq_self (s := { s with fleet := f }) ht

@[simp] theorem after_after (s : Session) (id : TaskId) (t t' : Task) (f f' : Fleet) :
    (s.after id t f).after id t' f' = s.after id t' f' :=
  setTask_setTask { s with fleet := f' } id t t'

theorem beforeLayer_eq_run (ht : s.task? id = some t) (info : TaskInfo) (scope : Scope)
    (index : Nat) (layer : Layer) (args : Args) :
    s.beforeLayer id info scope index layer args =
      let r := (t.askLayer id info scope index layer args).run s.fleet
      (r.1.1, r.1.2.1, s.after id r.1.2.2 r.2) := by
  have hself : s.after id t s.fleet = s := after_self ht s.fleet
  cases layer with
  | transformation specs =>
    simp only [beforeLayer, ht, Task.askLayer, Passage.beforeCall_eq_run, Dialogue.run_bind,
      Dialogue.run, after]
  | task _ => simp only [beforeLayer, Task.askLayer, Dialogue.run, hself]
  | constraint _ => simp only [beforeLayer, Task.askLayer, Dialogue.run, hself]
  | mpi _ => simp only [beforeLayer, Task.askLayer, Dialogue.run, hself]
  | custom c => simp only [beforeLayer, Task.askLayer, Dialogue.run, hself]

theorem descend_eq_run (ht : s.task? id = some t) (info : TaskInfo) (scope : Scope) (index : Nat)
    (layers : List Layer) (args : Args) :
    descend id info scope index layers args s =
      let r := (t.askLayers id info scope index layers args).run s.fleet
      (r.1.1, s.after id r.1.2 r.2) := by
  induction layers generalizing index args s t with
  | nil => exact Prod.ext rfl (after_self ht s.fleet).symm
  | cons layer rest ih =>
    simp only [descend, Task.askLayers, beforeLayer_eq_run ht, Dialogue.run_bind]
    rcases (t.askLayer id info scope index layer args).run s.fleet with ⟨⟨fault | u, args', t'⟩, f⟩
    · rfl
    · simp only [ih (task?_after ht t' f), after_after]
      rfl

theorem present_eq_run (ht : s.task? id = some t) :
    s.present id t =
      let r := (t.askRegistration id s.scope).run s.fleet
      (r.1.1, s.after id r.1.2 r.2) := by
  have hself : s.after id t s.fleet = s := after_self ht s.fleet
  unfold present Task.askRegistration
  cases hrole : s.scope.role with
  | unset => exact Prod.ext rfl hself.symm
  | worker => exact Prod.ext rfl hself.symm
  | submitter =>
    dsimp only
    cases hreg : t.registration with
    | poisoned =>
      simp only [ensureRegistered, hreg]
      exact Prod.ext rfl hself.symm
    | done r =>
      simp only [ensureRegistered, hreg]
      exact Prod.ext rfl hself.symm
    | pending =>
      cases he : s.scope.engine with
      | none =>
        simp only [ensureRegistered, hreg, he]
        exact Prod.ext rfl hself.symm
      | some engine =>
        cases hd : Declaration.describe t.declaration.info t.declaration.layers with
        | error e =>
          simp only [ensureRegistered, hreg, he, hd]
          exact Prod.ext rfl hself.symm
        | ok r =>
          simp only [ensureRegistered_of_pending ht hreg he hd, Dialogue.run]
          refine Prod.ext ?_ rfl
          cases (s.fleet.register engine (.task id) r.descriptor).1 <;> rfl

theorem land_eq_run (id : TaskId) (d : Declaration) (scope : Scope)
    (descriptor : Option TaskDescriptor) (args : Args) (s : Session) :
    land id d scope descriptor args s =
      let r := (Task.askLanding id d scope descriptor args).run s.fleet
      (r.1, { s with fleet := r.2 }) := by
  obtain ⟨role, engine⟩ := scope
  cases role with
  | unset => rfl
  | worker => rfl
  | submitter =>
    cases descriptor with
    | none => rfl
    | some x =>
      cases engine with
      | none => rfl
      | some engine =>
        simp only [land, Task.askLanding, Dialogue.run]
        rcases s.fleet.submit engine (.task id) x d.info.schema args with ⟨admission, f⟩
        cases admission <;> rfl

/-- **The way of a call is the dialogue of its task.** -/
theorem enter_eq_run (ht : s.task? id = some t) (args : Args) :
    s.enter id t args =
      let r := (t.dialogue id s.scope args).run s.fleet
      (r.1.1, s.after id r.1.2 r.2) := by
  simp only [enter, approach, present_eq_run ht, Task.dialogue, Dialogue.run_bind]
  rcases (t.askRegistration id s.scope).run s.fleet with ⟨⟨fault | descriptor, t'⟩, f⟩
  · rfl
  · simp only [descend_eq_run (task?_after ht t' f), after_after, Dialogue.run_bind]
    have hfleet : (s.after id t' f).fleet = f := rfl
    rw [hfleet]
    rcases (t'.askLayers id t.declaration.info s.scope 0 _ args).run f with
      ⟨⟨fault | args', t''⟩, f'⟩
    · rfl
    · simp only [land_eq_run, Dialogue.run_bind]
      rfl

/-- A call is its dialogue and then the run of the body that the dialogue has led to. -/
theorem callWithin_eq_dialogue (ht : s.task? id = some t) (depth : Nat) (args : Args) :
    callWithin (depth + 1) id args s =
      let r := (t.dialogue id s.scope args).run s.fleet
      r.1.1.finish (callNamed (callWithin depth)) (s.after id r.1.2 r.2) := by
  simp only [callWithin, ht, callInScope_eq_enter, enter_eq_run ht]

end Session
end TaskStack
