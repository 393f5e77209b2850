import TaskStack.Session.Command

/-!
# The past does not matter

The history of a session is written and never read. So a session with more history beneath it goes
through the same calls and commands with the same answers, and ends with the same history beneath.

**Theorem (`performAll_onto`).** A run of commands commutes with putting a history beneath the
session; so does every call (`callWithin_oblivious`).
-/

namespace TaskStack

/-- The engines with a history beneath their own. -/
def Fleet.onto (f : Fleet) (past : List Event) : Fleet := { f with history := f.history ++ past }

def Passing.onto (x : Passing) (past : List Event) : Passing :=
  { x with fleet := x.fleet.onto past }

namespace Fleet

theorem register_onto (f : Fleet) (past : List Event) (id : EngineId) (origin : Origin)
    (d : TaskDescriptor) :
    (f.onto past).register id origin d =
      ((f.register id origin d).1, (f.register id origin d).2.onto past) := by
  cases h : f.engines[id]? with
  | none => simp only [register, onto, h]
  | some e =>
    simp only [register, onto, h]
    rfl

theorem submit_onto (f : Fleet) (past : List Event) (id : EngineId) (origin : Origin)
    (d : TaskDescriptor) (schema : Schema) (args : Args) :
    (f.onto past).submit id origin d schema args =
      ((f.submit id origin d schema args).1, (f.submit id origin d schema args).2.onto past) := by
  cases h : f.engines[id]? with
  | none => simp only [submit, onto, h]
  | some e =>
    simp only [submit, onto, h]
    rfl

end Fleet

namespace Passage

variable (p : Passage) (past : List Event)

theorem ensureDerived_onto (engine : EngineId) (param : String) (x : Passing) :
    p.ensureDerived engine param (x.onto past) =
      ((p.ensureDerived engine param x).1, (p.ensureDerived engine param x).2.onto past) := by
  unfold ensureDerived
  simp only [Passing.onto, Fleet.register_onto]
  split
  · rfl
  · cases x.derived.descriptors.get? param with
    | some d => rfl
    | none =>
      dsimp only
      rcases x.fleet.register engine (p.origin param) (Derived.descriptor p.info param) with
        ⟨fault | u, fleet⟩
      · cases fault <;> rfl
      · rfl

theorem submitDerived_onto (t : Transform) (v : Value) (x : Passing) :
    p.submitDerived t v (x.onto past) =
      ((p.submitDerived t v x).1, (p.submitDerived t v x).2.onto past) := by
  unfold submitDerived
  cases p.scope.engine with
  | none => rfl
  | some engine =>
    dsimp only
    rw [ensureDerived_onto]
    rcases p.ensureDerived engine t.param x with ⟨fault | d, y⟩
    · rfl
    · simp only [Passing.onto, Fleet.submit_onto]

theorem transform_onto (t : Transform) (v : Value) (x : Passing) :
    p.transform t v (x.onto past) =
      ((p.transform t v x).1, (p.transform t v x).2.onto past) := by
  unfold transform
  split
  · rfl
  · exact submitDerived_onto p past t v x

theorem substitute_onto (ts : List Transform) (x : Passing) :
    p.substitute ts (x.onto past) =
      ((p.substitute ts x).1, (p.substitute ts x).2.onto past) := by
  induction ts generalizing x with
  | nil => rfl
  | cons t rest ih =>
    have hargs : (x.onto past).args = x.args := rfl
    rw [substitute, substitute, hargs]
    cases x.args.locate p.info.schema t.param with
    | none => rfl
    | some found =>
      obtain ⟨site, v⟩ := found
      dsimp only
      rw [transform_onto]
      rcases p.transform t v x with ⟨fault | w, y⟩
      · rfl
      · exact ih { y with args := y.args.replace site t.param w }

theorem beforeCall_onto (specs : List Transform) (x : Passing) :
    p.beforeCall specs (x.onto past) =
      ((p.beforeCall specs x).1, (p.beforeCall specs x).2.onto past) := by
  by_cases hrole : p.scope.role = .submitter
  · rw [beforeCall_of_submitter hrole, beforeCall_of_submitter hrole]
    have hargs : (x.onto past).args = x.args := rfl
    simp only [hargs]
    generalize (if x.args.transforms.isEmpty then specs else x.args.transforms) = inForce
    split
    · rfl
    · exact substitute_onto p past inForce { x with args := { x.args with transforms := [] } }
  · rw [beforeCall_of_not_submitter hrole, beforeCall_of_not_submitter hrole]
    rfl

end Passage

namespace Session

/-- A session with a history beneath its own. -/
def onto (s : Session) (past : List Event) : Session := { s with fleet := s.fleet.onto past }

variable (past : List Event)

theorem ensureRegistered_onto (s : Session) (id : TaskId) (t : Task) (scope : Scope) :
    (s.onto past).ensureRegistered id t scope =
      ((s.ensureRegistered id t scope).1, (s.ensureRegistered id t scope).2.onto past) := by
  unfold ensureRegistered
  cases t.registration with
  | poisoned => rfl
  | done r => rfl
  | pending =>
    cases scope.engine with
    | none => rfl
    | some engine =>
      cases Declaration.describe t.declaration.info t.declaration.layers with
      | error e => rfl
      | ok r =>
        simp only [onto, Fleet.register_onto]
        rcases s.fleet.register engine (.task id) r.descriptor with ⟨fault | u, fleet⟩
        · cases fault <;> rfl
        · rfl

theorem beforeLayer_onto (s : Session) (id : TaskId) (info : TaskInfo) (scope : Scope)
    (index : Nat) (layer : Layer) (args : Args) :
    (s.onto past).beforeLayer id info scope index layer args =
      ((s.beforeLayer id info scope index layer args).1,
        (s.beforeLayer id info scope index layer args).2.1,
        (s.beforeLayer id info scope index layer args).2.2.onto past) := by
  have htask : (s.onto past).task? id = s.task? id := rfl
  unfold beforeLayer
  rw [htask]
  cases layer with
  | transformation specs =>
    cases s.task? id with
    | none => rfl
    | some t =>
      have h := (⟨info, scope, id, index⟩ : Passage).beforeCall_onto past specs
        ⟨args, t.derivedAt index, s.fleet⟩
      have hx : (⟨args, t.derivedAt index, (s.onto past).fleet⟩ : Passing) =
          (⟨args, t.derivedAt index, s.fleet⟩ : Passing).onto past := rfl
      simp only [hx, h]
      rfl
  | task _ => rfl
  | constraint _ => rfl
  | mpi _ => rfl
  | custom c => rfl

/-- What a computation gives and does to a session does not depend on what happened before. -/
def Oblivious {α : Type} (f : Session → α × Session) : Prop :=
  ∀ s past, f (s.onto past) = ((f s).1, (f s).2.onto past)

variable {callTask : String → Args → Session → Except Fault Value × Session}

theorem run_oblivious (hcall : ∀ name args, Oblivious (callTask name args)) (p : Program) :
    Oblivious (p.run callTask) := by
  intro s past
  induction p generalizing s with
  | done r => rfl
  | call task args next ih =>
    rw [Program.run, Program.run, hcall]
    rcases callTask task args s with ⟨fault | v, s'⟩
    · cases fault with
      | error e => exact ih _ s'
      | panic text => rfl
      | tooDeep => rfl
    · exact ih _ s'

theorem runBody_oblivious (hcall : ∀ name args, Oblivious (callTask name args)) (id : TaskId)
    (d : Declaration) (role : Role) (args : Args) :
    Oblivious (runBody callTask id d role args) := fun s past =>
  run_oblivious hcall _ { s with fleet := s.fleet.log (.body id role) } past

theorem innermost_oblivious (hcall : ∀ name args, Oblivious (callTask name args)) (id : TaskId)
    (d : Declaration) (scope : Scope) (descriptor : Option TaskDescriptor) (args : Args) :
    Oblivious (innermost callTask id d scope descriptor args) := by
  intro s past
  unfold innermost
  split
  · next x _ =>
    cases scope.engine with
    | none => rfl
    | some engine =>
      simp only [onto, Fleet.submit_onto]
      rcases s.fleet.submit engine (.task id) x d.info.schema args with ⟨admission, fleet⟩
      cases admission with
      | settled result => rfl
      | run => exact runBody_oblivious hcall id d scope.role args { s with fleet } past
  · exact runBody_oblivious hcall id d scope.role args s past

theorem passLayers_oblivious {inner : Args → Session → Except Fault Value × Session}
    (hinner : ∀ args, Oblivious (inner args)) (id : TaskId) (info : TaskInfo) (scope : Scope)
    (index : Nat) (layers : List Layer) (args : Args) (s : Session) :
    passLayers id info scope inner index layers args (s.onto past) =
      ((passLayers id info scope inner index layers args s).1,
        (passLayers id info scope inner index layers args s).2.1,
        (passLayers id info scope inner index layers args s).2.2.onto past) := by
  induction layers generalizing index args s with
  | nil => simp only [passLayers, hinner args s past]
  | cons layer rest ih =>
    rw [passLayers, passLayers, beforeLayer_onto]
    rcases s.beforeLayer id info scope index layer args with ⟨fault | u, args', s'⟩
    · rfl
    · simp only [Args.within, ih]

theorem callInScope_oblivious (hcall : ∀ name args, Oblivious (callTask name args)) (id : TaskId)
    (t : Task) (scope : Scope) (args : Args) :
    Oblivious (callInScope callTask id t scope args) := by
  intro s past
  have hthrough (descriptor : Option TaskDescriptor) :
      Oblivious (callInScope.through callTask id scope args t.declaration descriptor) := by
    intro s past
    have hinner := innermost_oblivious hcall id t.declaration scope descriptor
    simp only [callInScope.through, passLayers_oblivious past hinner]
  unfold callInScope
  cases scope.role with
  | unset => exact runBody_oblivious hcall id t.declaration .unset args s past
  | worker => exact hthrough none s past
  | submitter =>
    dsimp only
    rw [ensureRegistered_onto]
    rcases s.ensureRegistered id t scope with ⟨fault | x, s'⟩
    · rfl
    · exact hthrough (some x) s' past

theorem callNamed_oblivious {callTask : TaskId → Args → Session → Except Fault Value × Session}
    (hcall : ∀ id args, Oblivious (callTask id args)) (name : String) (args : Args) :
    Oblivious (callNamed callTask name args) := by
  intro s past
  have hnames : (s.onto past).names = s.names := rfl
  rw [callNamed, callNamed, hnames]
  cases s.names.get? name with
  | none => rfl
  | some id => exact hcall id args s past

/-- **The past does not matter to a call.** -/
theorem callWithin_oblivious (depth : Nat) (id : TaskId) (args : Args) :
    Oblivious (callWithin depth id args) := by
  induction depth generalizing id args with
  | zero => exact fun _ _ => rfl
  | succ depth ih =>
    intro s past
    have htask : (s.onto past).task? id = s.task? id := rfl
    rw [callWithin, callWithin, htask]
    cases s.task? id with
    | none => rfl
    | some t => exact callInScope_oblivious (callNamed_oblivious ih) id t s.scope args s past

theorem perform_onto (s : Session) (c : Command) :
    (s.onto past).perform c = (s.perform c).onto past := by
  cases c with
  | addEngine e => rfl
  | setRole next =>
    have hcontext : (s.onto past).context = s.context := rfl
    simp only [perform, setRole, hcontext]
    cases s.context.setRole next <;> rfl
  | startSubmitter engine =>
    have hcontext : (s.onto past).context = s.context := rfl
    simp only [perform, startSubmitter, moveTo, hcontext]
    cases s.context.startSubmitter engine <;> rfl
  | startWorker =>
    have hcontext : (s.onto past).context = s.context := rfl
    simp only [perform, startWorker, moveTo, hcontext]
    cases s.context.startWorker <;> rfl
  | stop => rfl
  | declare name d => rfl
  | call id args depth => exact congrArg Prod.snd (callWithin_oblivious depth id args s past)

/-- **The past does not matter to a run of commands.** -/
theorem performAll_onto (s : Session) (commands : List Command) :
    (s.onto past).performAll commands = (s.performAll commands).onto past := by
  induction commands generalizing s with
  | nil => rfl
  | cons c rest ih =>
    have hcons (s : Session) : s.performAll (c :: rest) = (s.perform c).performAll rest := rfl
    rw [hcons, hcons, perform_onto, ih]

end Session
end TaskStack
