import TaskStack.Proofs.Call.Agree
import TaskStack.Proofs.Session.Dialogue

/-!
# The terms of a call

Which requests a call can make, and with which errors it can fail, is read off its task: it asks on
account of the task and of its transformation layers, for the descriptors that they hold or make;
and besides what engines, layers from outside and descriptions answer, it fails with what its locks
and this library say.

**Theorem (`callWithin_fails`).** A call fails only in a way that its terms allow, if the engines
keep to the terms.

* `Passage.dialogue_keeps`, `Task.dialogue_keeps`: the parts of a call.
-/

namespace TaskStack

/-- If the result is an error, it is one of the given ones. -/
def FailsWithin {α : Type} (Q : TaskError → Prop) (r : Except Fault α) : Prop :=
  ∀ e, r = .error (.error e) → Q e

theorem failsWithin_ok {α : Type} {Q : TaskError → Prop} (a : α) :
    FailsWithin Q (.ok a : Except Fault α) := fun _ h => by cases h

theorem failsWithin_map {α β : Type} {Q : TaskError → Prop} {f : α → β} {r : Except Fault α}
    (h : FailsWithin Q r) : FailsWithin Q (r.map f) := by
  intro e he
  cases r with
  | ok a => cases he
  | error fault =>
    cases he
    exact h e rfl

theorem FailsWithin.cast {α β : Type} {Q : TaskError → Prop} {fault : Fault}
    (h : FailsWithin Q (.error fault : Except Fault α)) :
    FailsWithin Q (.error fault : Except Fault β) := by
  intro e he
  cases he
  exact h e rfl

namespace Dialogue.Terms

/-- Errors that answers within the terms bring, and those that every call may fail with. -/
structure Allow (T : Terms) (Q : TaskError → Prop) : Prop where
  answers : ∀ answer, T.answers answer → FailsWithin Q answer
  admits : ∀ result, T.admits (.settled result) → FailsWithin Q result
  noEngine : Q (.handoff .noEngine)
  definition : ∀ e, Q (.definition e)
  execution : ∀ text, Q (.execution text)

theorem Allow.failsWithin_abort {T : Terms} {Q : TaskError → Prop} (h : T.Allow Q) {α : Type}
    (r : Except Abort α) : FailsWithin Q (r.mapError Abort.fault) := by
  intro e he
  cases r with
  | ok a => cases he
  | error abort =>
    cases abort with
    | failure text =>
      cases he
      exact h.execution text
    | panic text => cases he

end Dialogue.Terms

open Dialogue

variable {T : Terms} {Q : TaskError → Prop} {params : String → Prop}

/-! ## Layers -/

/-- The terms allow what a layer holds and makes for the parameters, and the failure of its lock. -/
structure Passage.Within (p : Passage) (T : Terms) (Q : TaskError → Prop)
    (params : String → Prop) (x : Derived) : Prop where
  asks : ∀ engine param d, p.scope.engine = some engine → params param →
    x.descriptors.get? param = some d ∨ d = Derived.descriptor p.info param →
    T.asks engine (p.origin param) d
  poisoned : x.poisoned = true → Q (.handoff (.poisoned "transformaciones derivadas"))

/-- The transformations that are not applied in process are about the parameters. -/
def Transform.About (params : String → Prop) (us : List Transform) : Prop :=
  ∀ u ∈ us, u.workflow = false → params u.param

namespace Passage

variable {p : Passage} {x : Derived}

theorem Within.insert (h : p.Within T Q params x) (param : String) :
    p.Within T Q params
      { x with descriptors := x.descriptors.insert param (Derived.descriptor p.info param) } where
  asks engine param' d he hparam' hd := by
    refine h.asks engine param' d he hparam' ?_
    obtain hd | hd := hd
    · by_cases hne : param = param'
      · subst hne
        rw [Dict.get?_insert_self] at hd
        exact .inr (Option.some.inj hd).symm
      · rw [Dict.get?_insert_of_ne _ _ hne] at hd
        exact .inl hd
    · exact .inr hd
  poisoned := h.poisoned

theorem askDerived_keeps (hT : T.Allow Q) (h : p.Within T Q params x) {engine : EngineId}
    (he : p.scope.engine = some engine) {param : String} (hparam : params param) :
    (p.askDerived engine param x).Keeps T fun r => FailsWithin Q r.1 ∧
      ∀ d, r.1 = .ok d → T.asks engine (p.origin param) d ∧ p.Within T Q params r.2 := by
  unfold askDerived
  split
  · next hp =>
    refine ⟨?_, fun d hd => by cases hd⟩
    intro e he
    cases he
    exact h.poisoned hp
  · split
    · next d hd =>
      refine ⟨failsWithin_ok d, ?_⟩
      rintro d' ⟨⟩
      exact ⟨h.asks engine param d he hparam (.inl hd), h⟩
    · have hasks := h.asks engine param _ he hparam (.inr rfl)
      refine ⟨hasks, ?_⟩
      intro answer hanswer
      refine ⟨failsWithin_map (hT.answers answer hanswer), ?_⟩
      intro d hd
      cases answer with
      | error fault => cases hd
      | ok u =>
        cases hd
        exact ⟨hasks, h.insert param⟩

theorem askTransform_keeps (hT : T.Allow Q) (h : p.Within T Q params x) {u : Transform}
    (hu : u.workflow = false → params u.param) (v : Value) :
    (p.askTransform u v x).Keeps T fun r => FailsWithin Q r.1 ∧
      (r.1.isOk = true → p.Within T Q params r.2) := by
  unfold askTransform
  split
  · exact ⟨hT.failsWithin_abort _, fun _ => h⟩
  · next hworkflow =>
    split
    · refine ⟨?_, fun hok => by cases hok⟩
      intro e he
      cases he
      exact hT.noEngine
    · next engine he =>
      refine (askDerived_keeps hT h he (hu (by simpa using hworkflow))).bind ?_
      rintro ⟨fault | d, y⟩ ⟨hfails, hok⟩
      · exact ⟨hfails.cast, fun hok => by cases hok⟩
      · obtain ⟨hasks, hy⟩ := hok d rfl
        refine ⟨hasks, ?_⟩
        intro admission hadmission
        cases admission with
        | settled result => exact ⟨hT.admits result hadmission, fun _ => hy⟩
        | run => exact ⟨hT.failsWithin_abort _, fun _ => hy⟩

theorem askSubstitute_keeps (hT : T.Allow Q) (h : p.Within T Q params x) {us : List Transform}
    (hus : Transform.About params us) (args : Args) (hargs : args.transforms = []) :
    (p.askSubstitute us args x).Keeps T fun r => FailsWithin Q r.1 ∧
      (r.1.isOk = true → r.2.1.transforms = [] ∧ p.Within T Q params r.2.2) := by
  induction us generalizing args x with
  | nil => exact ⟨failsWithin_ok (), fun _ => ⟨hargs, h⟩⟩
  | cons u us ih =>
    obtain ⟨hu, hus⟩ := List.forall_mem_cons.1 hus
    rw [askSubstitute]
    split
    · refine ⟨?_, fun hok => by cases hok⟩
      intro e he
      cases he
      exact hT.definition _
    · next site v _ =>
      refine (askTransform_keeps hT h hu v).bind ?_
      rintro ⟨fault | w, y⟩ ⟨hfails, hok⟩
      · exact ⟨hfails.cast, fun hok => by cases hok⟩
      · exact ih (hok rfl) hus _ ((Args.transforms_replace ..).trans hargs)

/-- A transformation layer keeps to the terms, and uses up the transformations of the call. -/
theorem dialogue_keeps (hT : T.Allow Q) (h : p.Within T Q params x) {specs : List Transform}
    (hspecs : Transform.About params specs) {args : Args}
    (hargs : Transform.About params args.transforms) :
    (p.dialogue specs args x).Keeps T fun r => FailsWithin Q r.1 ∧
      (r.1.isOk = true → r.2.1.transforms = [] ∧ p.Within T Q params r.2.2) := by
  unfold dialogue
  dsimp only
  split
  · exact ⟨failsWithin_ok (), fun _ => ⟨rfl, h⟩⟩
  · have hforce : Transform.About params
        (if args.transforms.isEmpty then specs else args.transforms) := by
      split
      · exact hspecs
      · exact hargs
    generalize (if args.transforms.isEmpty then specs else args.transforms) = inForce at hforce
    split
    · refine ⟨?_, fun hok => by cases hok⟩
      intro e he
      cases he
      exact hT.definition _
    · exact askSubstitute_keeps hT h hforce _ rfl

end Passage

/-! ## Calls -/

/-- The terms allow what a task holds and makes, for itself and in its layers, and the failures of
its locks, of its description and of its layers from outside. -/
structure Task.Within (t : Task) (id : TaskId) (scope : Scope) (T : Terms) (Q : TaskError → Prop)
    (params : String → Prop) : Prop where
  asks : ∀ engine r, scope.engine = some engine → t.registration = .done r ∨
    Declaration.describe t.declaration.info t.declaration.layers = .ok r →
    T.asks engine (.task id) r.descriptor
  poisoned : t.registration = .poisoned → Q (.handoff (.poisoned "registro de la tarea"))
  describe : ∀ e, Declaration.describe t.declaration.info t.declaration.layers = .error e → Q e
  derived : ∀ index, (⟨t.declaration.info, scope, id, index⟩ : Passage).Within T Q params
    (t.derivedAt index)
  specs : ∀ specs, .transformation specs ∈ t.declaration.layers → Transform.About params specs
  custom : ∀ c, .custom c ∈ t.declaration.layers → ∀ args, Transform.About params args.transforms →
    FailsWithin Q (c.beforeCall t.declaration.info scope.role args).1 ∧
      Transform.About params (c.beforeCall t.declaration.info scope.role args).2.transforms

namespace Task

variable {t : Task} {id : TaskId} {scope : Scope} {index : Nat}

/-- The terms allow what the layers of a task hold and make. -/
def DerivedWithin (t : Task) (id : TaskId) (info : TaskInfo) (scope : Scope) (T : Terms)
    (Q : TaskError → Prop) (params : String → Prop) : Prop :=
  ∀ index, (⟨info, scope, id, index⟩ : Passage).Within T Q params (t.derivedAt index)

/-- What is remembered about a layer is what was remembered before, or the change. -/
theorem derivedAt_setDerived (t : Task) (index index' : Nat) (x : Derived) :
    (t.setDerived index x).derivedAt index' = t.derivedAt index' ∨
      index = index' ∧ (t.setDerived index x).derivedAt index' = x := by
  by_cases hne : index = index'
  · subst hne
    by_cases hlt : index < t.declaration.layers.length
    · exact .inr ⟨rfl, t.derivedAt_setDerived_self x hlt⟩
    · have hset : t.derived.set index x = t.derived :=
        List.set_eq_of_length_le (by rw [t.derived_length]; exact Nat.le_of_not_lt hlt)
      exact .inl (by simp only [derivedAt, setDerived, hset])
  · exact .inl (t.derivedAt_setDerived_of_ne x hne)

theorem askLayer_keeps {info : TaskInfo} (hT : T.Allow Q)
    (h : t.DerivedWithin id info scope T Q params) {layer : Layer} {args : Args}
    (hargs : Transform.About params args.transforms)
    (hspecs : ∀ specs, layer = .transformation specs → Transform.About params specs)
    (hcustom : ∀ c, layer = .custom c → FailsWithin Q (c.beforeCall info scope.role args).1 ∧
      Transform.About params (c.beforeCall info scope.role args).2.transforms) :
    (t.askLayer id info scope index layer args).Keeps T fun r => FailsWithin Q r.1 ∧
      (r.1.isOk = true → Transform.About params r.2.1.transforms ∧
        r.2.2.DerivedWithin id info scope T Q params) := by
  cases layer with
  | transformation specs =>
    refine (Passage.dialogue_keeps hT (h index) (hspecs specs rfl) hargs).bind ?_
    rintro ⟨r, args', x⟩ ⟨hfails, hok⟩
    refine ⟨hfails, ?_⟩
    intro hr
    obtain ⟨hnone, hx⟩ := hok hr
    have hempty : args'.transforms = [] := hnone
    refine ⟨by simp [hempty, Transform.About], ?_⟩
    intro index'
    obtain hsame | ⟨rfl, hself⟩ := t.derivedAt_setDerived index index' x
    · exact hsame.symm ▸ h index'
    · exact hself.symm ▸ hx
  | custom c =>
    obtain ⟨hfails, habout⟩ := hcustom c rfl
    exact ⟨hfails, fun _ => ⟨habout, h⟩⟩
  | task _ => exact ⟨failsWithin_ok (), fun _ => ⟨hargs, h⟩⟩
  | constraint _ => exact ⟨failsWithin_ok (), fun _ => ⟨hargs, h⟩⟩
  | mpi _ => exact ⟨failsWithin_ok (), fun _ => ⟨hargs, h⟩⟩

theorem askLayers_keeps {info : TaskInfo} (hT : T.Allow Q)
    (h : t.DerivedWithin id info scope T Q params) {layers : List Layer}
    (hspecs : ∀ specs, .transformation specs ∈ layers → Transform.About params specs)
    (hcustom : ∀ c, .custom c ∈ layers → ∀ args, Transform.About params args.transforms →
      FailsWithin Q (c.beforeCall info scope.role args).1 ∧
        Transform.About params (c.beforeCall info scope.role args).2.transforms)
    {args : Args} (hargs : Transform.About params args.transforms) :
    (t.askLayers id info scope index layers args).Keeps T fun r => FailsWithin Q r.1 := by
  induction layers generalizing index args t with
  | nil => exact failsWithin_ok args
  | cons layer rest ih =>
    refine (askLayer_keeps hT h hargs (fun specs hl => hspecs specs (by simp [hl]))
      (fun c hl => hcustom c (by simp [hl]) args hargs)).bind ?_
    rintro ⟨fault | u, args', t'⟩ ⟨hfails, hok⟩
    · exact hfails.cast
    · obtain ⟨hargs', h'⟩ := hok rfl
      refine ih h' (fun specs hl => hspecs specs (List.mem_cons_of_mem _ hl))
        (fun c hl => hcustom c (List.mem_cons_of_mem _ hl)) ?_
      rwa [Layer.mark, Args.transforms_marked]

/-- The hand-over keeps to the terms; what it gives may be submitted. -/
theorem askRegistration_keeps (hT : T.Allow Q) (h : t.Within id scope T Q params) :
    (t.askRegistration id scope).Keeps T fun r => FailsWithin Q r.1 ∧
      (∀ d engine, r.1 = .ok (some d) → scope.engine = some engine → T.asks engine (.task id) d) ∧
      r.2.derived = t.derived := by
  unfold askRegistration
  split
  · split
    · next hreg =>
      refine ⟨?_, fun d engine hd => (by cases hd), rfl⟩
      intro e he
      cases he
      exact h.poisoned hreg
    · next r hreg =>
      refine ⟨failsWithin_ok _, ?_, rfl⟩
      rintro d engine ⟨⟩ he
      exact h.asks engine r he (.inl hreg)
    · split
      · refine ⟨?_, fun d engine hd => (by cases hd), rfl⟩
        intro e he
        cases he
        exact hT.noEngine
      · next engine he =>
        split
        · next e hd =>
          refine ⟨?_, fun d engine hd => (by cases hd), rfl⟩
          rintro e' ⟨⟩
          exact h.describe e hd
        · next r hd =>
          have hasks := h.asks engine r he (.inr hd)
          refine ⟨hasks, ?_⟩
          intro answer hanswer
          refine ⟨failsWithin_map (hT.answers answer hanswer), ?_, rfl⟩
          intro d engine' hd he'
          cases he.symm.trans he'
          cases answer with
          | error fault => cases hd
          | ok u =>
            cases hd
            exact hasks
  · exact ⟨failsWithin_ok _, fun d engine hd => (by cases hd), rfl⟩

theorem askLanding_keeps (hT : T.Allow Q) (d : Declaration) {descriptor : Option TaskDescriptor}
    (h : ∀ x engine, descriptor = some x → scope.engine = some engine → T.asks engine (.task id) x)
    (args : Args) :
    (askLanding id d scope descriptor args).Keeps T fun landing =>
      ∀ result, landing = .ended result → FailsWithin Q result := by
  have hbegun : (askLanding.begun id d scope args).Keeps T fun landing =>
      ∀ result, landing = .ended result → FailsWithin Q result := by
    intro result hresult
    cases hresult
  unfold askLanding
  split
  · next x _ =>
    split
    · rintro result ⟨⟩ e he
      cases he
      exact hT.noEngine
    · next engine he =>
      refine ⟨h x engine rfl he, ?_⟩
      intro admission hadmission
      cases admission with
      | settled result =>
        rintro result' ⟨⟩
        exact hT.admits result hadmission
      | run => exact hbegun
  · exact hbegun

/-- **The dialogue of a call keeps to the terms** that allow what its task holds and makes. -/
theorem dialogue_keeps (hT : T.Allow Q) (h : t.Within id scope T Q params) {args : Args}
    (hargs : Transform.About params args.transforms) :
    (t.dialogue id scope args).Keeps T fun r =>
      ∀ result, r.1 = .ended result → FailsWithin Q result := by
  refine (askRegistration_keeps hT h).bind ?_
  rintro ⟨fault | descriptor, t'⟩ ⟨hfails, hasks, hderived⟩
  · rintro result ⟨⟩
    exact hfails.cast
  · have hsame : ∀ index, t'.derivedAt index = t.derivedAt index := fun index =>
      congrArg (·.getD index {}) hderived
    have hmem : ∀ l, l ∈ Session.passed scope.role t.declaration.layers →
        l ∈ t.declaration.layers := by
      intro l hl
      unfold Session.passed at hl
      split at hl
      · cases hl
      · exact hl
    have hderivedWithin : t'.DerivedWithin id t.declaration.info scope T Q params := fun index =>
      hsame index ▸ h.derived index
    refine (askLayers_keeps hT hderivedWithin (fun specs hl => h.specs specs (hmem _ hl))
      (fun c hl => h.custom c (hmem _ hl)) hargs).bind ?_
    rintro ⟨fault | args', t''⟩ hfails
    · rintro result ⟨⟩
      exact hfails.cast
    · refine (askLanding_keeps hT t.declaration ?_ args').bind fun landing hlanding => hlanding
      rintro x engine ⟨⟩ he
      exact hasks x engine rfl he

end Task

namespace Session

variable {s : Session} {id : TaskId} {t : Task}

/-- A body fails with failures of its own, whatever the calls in it fail with. -/
theorem run_fails (hT : T.Allow Q)
    (callTask : String → Args → Session → Except Fault Value × Session)
    (p : Program) (s : Session) : FailsWithin Q (p.run callTask s).1 := by
  induction p generalizing s with
  | done r => exact hT.failsWithin_abort r
  | call task args next ih =>
    rw [Program.run]
    rcases callTask task args s with ⟨fault | v, s'⟩
    · cases fault with
      | error e => exact ih _ s'
      | panic text => exact fun _ h => by cases h
      | tooDeep => exact fun _ h => by cases h
    · exact ih _ s'

/-- **A call fails only in a way that its terms allow,** if the engines keep to the terms. -/
theorem callWithin_fails (hT : T.Allow Q) (ht : s.task? id = some t)
    (h : t.Within id s.scope T Q params) {args : Args}
    (hargs : Transform.About params args.transforms) {I : Fleet → Prop}
    (hregister : ∀ f engine o d, I f → T.asks engine o d →
      T.answers (f.register engine o d).1 ∧ I (f.register engine o d).2)
    (hsubmit : ∀ f engine o d schema args, I f → T.asks engine o d →
      T.admits (f.submit engine o d schema args).1 ∧ I (f.submit engine o d schema args).2)
    (hbody : ∀ f id role, I f → I (f.log (.body id role))) (hf : I s.fleet) (depth : Nat) :
    FailsWithin Q (callWithin depth id args s).1 := by
  cases depth with
  | zero => exact fun _ h => by cases h
  | succ depth =>
    rw [callWithin_eq_dialogue ht]
    have hlanding := ((t.dialogue_keeps hT h hargs).run hregister hsubmit hbody hf).1
    generalize (t.dialogue id s.scope args).run s.fleet = r at hlanding
    obtain ⟨⟨result | program, t'⟩, f⟩ := r
    · exact hlanding result rfl
    · exact run_fails hT _ program _

end Session
end TaskStack
