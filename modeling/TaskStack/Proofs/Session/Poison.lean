import TaskStack.Proofs.Session.Contract
import TaskStack.Proofs.Session.Locks
import TaskStack.Proofs.Session.Meaning
import TaskStack.Proofs.Session.Once

/-!
# The answer of a poisoned lock

A poisoned lock answers for itself, before anybody is asked. The lock of a task ends every call of a
submitter with its answer; the lock of a layer gives its answer at every transformation that the
engine is to apply, whatever its parameter, and at no other. The same answer can come from elsewhere
only if somebody gives it of his own: an engine in its script, or a layer from outside. Bodies and
transformations cannot give it, nor can an engine that acts by itself.

**Theorem (`reason_of_callWithin`).** A call that ends with the answer of the lock of its task has
found it poisoned, or somebody else may say the same.

**Theorem (`Passage.reason_of_transform`).** So it is with the lock of a layer, at a transformation
that the engine is to apply.

* `callWithin_of_poisoned`, `Passage.transform_of_poisoned`: a poisoned lock gives its answer.
* `Passage.beforeCall_eq_error`: a layer fails at one of its transformations.
* `callWithin_of_not_submitter`: bodies run without the locks.
-/

namespace TaskStack

/-- The answer of a poisoned lock around derived tasks. -/
def poisonedDerived : Fault := .error (.handoff (.poisoned "transformaciones derivadas"))

/-! ## What others may say -/

theorem Connection.register_ne_poisoned (c : Connection) (d : TaskDescriptor) (lock : String) :
    (c.register d).1 ≠ .error (.poisoned lock) := by
  have hvalidate := d.validate_ne_poisoned lock
  unfold register
  generalize d.validate = checked at hvalidate ⊢
  cases checked with
  | error e => exact hvalidate
  | ok u =>
    dsimp only
    rcases c.send _ _ _ _ with ⟨detail | response, c'⟩
    · exact nofun
    · dsimp only
      split
      · unfold rejection
        dsimp only
        split <;> exact nofun
      · split <;> exact nofun

namespace Engine

variable {e : Engine} {x : HandoffError} {d : TaskDescriptor}

/-- The engine has the answer in one of its scripts. -/
def MaySay (e : Engine) (x : HandoffError) : Prop :=
  (∃ result signature, .answer result ∈ e.registerScript ∧ result signature = .error x) ∨
    e.MayAnswer (.handoff x)

theorem not_maySay_of_isLocal (h : e.IsLocal) : ¬ e.MaySay x := by
  rintro (⟨result, signature, hmem, -⟩ | hanswer)
  · rw [h.registerScript] at hmem
    cases hmem
  · exact not_mayAnswer_of_isLocal h hanswer

theorem MaySay.of_subset {e' : Engine} (h : e'.MaySay x)
    (hregister : ∀ reply ∈ e'.registerScript, reply ∈ e.registerScript)
    (hsubmit : ∀ reply ∈ e'.submitScript, reply ∈ e.submitScript) : e.MaySay x := by
  obtain ⟨result, signature, hmem, hresult⟩ | hanswer := h
  · exact .inl ⟨result, signature, hregister _ hmem, hresult⟩
  · exact .inr (hanswer.of_subset hsubmit)

theorem registerByReply_registerScript (e : Engine) (d : TaskDescriptor) (reply : RegisterReply) :
    (e.registerByReply d reply).2.registerScript = e.registerScript := by
  cases reply with
  | byItself =>
    simp only [registerByReply, keep]
    split <;> rfl
  | answer result => rfl
  | panic text => rfl

theorem MaySay.of_register (h : (e.register d).2.MaySay x) : e.MaySay x := by
  refine h.of_subset ?_ ?_
  · intro reply hmem
    unfold register at hmem
    split at hmem
    · rwa [registerByReply_registerScript] at hmem
    · next first rest hscript =>
      rw [registerByReply_registerScript] at hmem
      exact hscript ▸ List.mem_cons_of_mem first hmem
  · intro reply hmem
    rwa [register_submitScript] at hmem

theorem MaySay.of_submit {signature : String} {args : Args}
    (h : (e.submit signature args).2.MaySay x) : e.MaySay x := by
  have hreply (e : Engine) (reply : SubmitReply) :
      (e.submitByReply signature args reply).2.registerScript = e.registerScript := by
    cases reply <;> rfl
  refine h.of_subset ?_ fun _ hmem => mem_submitScript_of_submit hmem
  intro reply hmem
  unfold submit at hmem
  split at hmem
  · rwa [hreply] at hmem
  · rwa [hreply] at hmem

/-- An engine that acts by itself has no lock to speak of. -/
theorem keep_ne_poisoned (e : Engine) (d : TaskDescriptor) (lock : String) :
    (e.keep d).1 ≠ .error (.poisoned lock) := by
  unfold keep
  split
  · exact e.ledger.register_ne_poisoned d lock
  · next c _ => exact c.register_ne_poisoned d lock

/-- A poisoned lock that an engine speaks of is in its script. -/
theorem maySay_of_register {lock : String}
    (h : (e.register d).1 = .error (.error (.handoff (.poisoned lock)))) :
    e.MaySay (.poisoned lock) := by
  have hkeep (e : Engine) :
      (e.registerByReply d .byItself).1 ≠ .error (.error (.handoff (.poisoned lock))) := by
    intro h
    obtain ⟨y, hy, heq⟩ := mapError_eq_error_iff.1 h
    cases heq
    exact e.keep_ne_poisoned d lock hy
  unfold register at h
  split at h
  · exact absurd h (hkeep e)
  · next first rest hscript =>
    cases first with
    | byItself => exact absurd h (hkeep _)
    | panic text => cases h
    | answer result =>
      obtain ⟨y, hresult, heq⟩ := mapError_eq_error_iff.1 h
      cases heq
      exact .inl ⟨result, d.canonicalSignature, hscript ▸ List.mem_cons_self, hresult⟩

end Engine

namespace Fleet

variable {f : Fleet} {engine : EngineId} {x : HandoffError} {o : Origin} {d : TaskDescriptor}

/-- The engine of a number has the answer in one of its scripts. -/
def MaySay (f : Fleet) (engine : EngineId) (x : HandoffError) : Prop :=
  ∃ e, f.engines[engine]? = some e ∧ e.MaySay x

theorem MaySay.of_setEngine {i : EngineId} {e e' : Engine} {event : Event}
    (h : ((f.setEngine i e').log event).MaySay engine x) (he : f.engines[i]? = some e)
    (hsay : e'.MaySay x → e.MaySay x) : f.MaySay engine x := by
  obtain ⟨u, hu, hux⟩ := h
  by_cases hne : i = engine
  · subst hne
    cases (engines_setEngine he e').symm.trans hu
    exact ⟨e, he, hsay hux⟩
  · refine ⟨u, ?_, hux⟩
    rwa [log, setEngine, List.getElem?_set_ne hne] at hu

theorem MaySay.of_register {i : EngineId} (h : (f.register i o d).2.MaySay engine x) :
    f.MaySay engine x := by
  unfold register at h
  split at h
  · exact h
  · next e he => exact h.of_setEngine he Engine.MaySay.of_register

theorem MaySay.of_submit {i : EngineId} {schema : Schema} {args : Args}
    (h : (f.submit i o d schema args).2.MaySay engine x) : f.MaySay engine x := by
  unfold submit at h
  split at h
  · exact h
  · next e he => exact h.of_setEngine he Engine.MaySay.of_submit

theorem maySay_of_register {lock : String}
    (h : (f.register engine o d).1 = .error (.error (.handoff (.poisoned lock)))) :
    f.MaySay engine (.poisoned lock) := by
  unfold register at h
  split at h
  · cases h
  · next e he => exact ⟨e, he, Engine.maySay_of_register h⟩

theorem maySay_of_settled {schema : Schema} {args : Args} {lock : String}
    (h : (f.submit engine o d schema args).1 =
      .settled (.error (.error (.handoff (.poisoned lock))))) :
    f.MaySay engine (.poisoned lock) := by
  unfold submit at h
  split at h
  · cases h
  · next e he => exact ⟨e, he, .inr (Engine.mayAnswer_of_settled h)⟩

end Fleet

/-- The layer from outside gives the answer to some task or call. -/
def CustomLayer.MaySay (c : CustomLayer) (x : HandoffError) : Prop :=
  (∃ info slot, (c.configure info slot).1 = .error (.handoff x)) ∨
    (∃ info b, (c.complete info b).1 = .error (.handoff x)) ∨
    ∃ info role args, (c.beforeCall info role args).1 = .error (.error (.handoff x))

namespace Declaration

variable {info : TaskInfo} {layers : List Layer} {x : HandoffError}

/-- One of the layers from outside gives the answer. -/
def MaySay (layers : List Layer) (x : HandoffError) : Prop :=
  ∃ c, .custom c ∈ layers ∧ c.MaySay x

theorem conflicting_ne_handoff {σ : Type} (r : Except DescriptorConflict Unit × σ)
    (x : HandoffError) : (Layer.conflicting r).1 ≠ .error (.handoff x) := by
  intro h
  obtain ⟨y, -, heq⟩ := mapError_eq_error_iff.1 h
  cases heq

theorem maySay_of_configureAll {slot : DescriptorSlot}
    (h : configureAll info layers slot = .error (.handoff x)) : MaySay layers x := by
  induction layers generalizing slot with
  | nil => cases h
  | cons l rest ih =>
    rw [configureAll] at h
    split at h
    · obtain ⟨c, hc, hsay⟩ := ih h
      exact ⟨c, List.mem_cons_of_mem _ hc, hsay⟩
    · next e slot' hl =>
      cases h
      have hfirst : (l.configure info slot).1 = .error (.handoff x) := congrArg Prod.fst hl
      cases l with
      | custom c => exact ⟨c, List.mem_cons_self, .inl ⟨info, slot, hfirst⟩⟩
      | transformation specs => cases hfirst
      | task t => exact absurd hfirst (conflicting_ne_handoff _ x)
      | constraint c => exact absurd hfirst (conflicting_ne_handoff _ x)
      | mpi m => exact absurd hfirst (conflicting_ne_handoff _ x)

theorem maySay_of_completeAll {b : DescriptorBuilder}
    (h : completeAll info layers b = .error (.handoff x)) : MaySay layers x := by
  induction layers generalizing b with
  | nil => cases h
  | cons l rest ih =>
    rw [completeAll] at h
    split at h
    · obtain ⟨c, hc, hsay⟩ := ih h
      exact ⟨c, List.mem_cons_of_mem _ hc, hsay⟩
    · next e b' hl =>
      cases h
      have hfirst : (l.complete info b).1 = .error (.handoff x) := congrArg Prod.fst hl
      cases l with
      | custom c => exact ⟨c, List.mem_cons_self, .inr (.inl ⟨info, b, hfirst⟩)⟩
      | task t => exact absurd hfirst (conflicting_ne_handoff _ x)
      | transformation specs => cases hfirst
      | constraint c => cases hfirst
      | mpi m => cases hfirst

/-- A task that cannot be described speaks of a hand-over only through a layer from outside. -/
theorem maySay_of_describe (h : describe info layers = .error (.handoff x)) :
    MaySay layers x := by
  unfold describe at h
  cases hslot : configureAll info layers {} with
  | error e =>
    rw [hslot] at h
    cases h
    exact maySay_of_configureAll hslot
  | ok slot =>
    simp only [hslot, bind, Except.bind] at h
    split at h
    · cases h
    · next b _ =>
      cases hb : completeAll info layers b with
      | error e =>
        rw [hb] at h
        cases h
        exact maySay_of_completeAll hb
      | ok b' =>
        simp only [hb] at h
        split at h <;> cases h

end Declaration

/-! ## Terms under which only a lock may say that it is poisoned -/

section Terms

open Dialogue

variable {engine? : Option EngineId} {lock : String} {P : Prop}

/-- The failures of a call that says only with good reason that a lock is poisoned. -/
def WithReason (lock : String) (P : Prop) (e : TaskError) : Prop :=
  e = .handoff (.poisoned lock) → P

/-- Asking one engine at most, for failures that are within reason. -/
def reasonable (engine? : Option EngineId) (lock : String) (P : Prop) : Terms where
  asks engine _ _ := engine? = some engine
  answers := FailsWithin (WithReason lock P)
  admits admission :=
    ∀ result, admission = .settled result → FailsWithin (WithReason lock P) result

/-- It is reason enough that the engine may say so. -/
def Reasons (engine? : Option EngineId) (lock : String) (P : Prop) (f : Fleet) : Prop :=
  ∀ engine, engine? = some engine → f.MaySay engine (.poisoned lock) → P

theorem reasonable_allow :
    (reasonable engine? lock P).Allow (WithReason lock P) where
  answers _ h := h
  admits result h := h result rfl
  noEngine := nofun
  definition _ := nofun
  execution _ := nofun

theorem reasonable_register (f : Fleet) (engine : EngineId) (o : Origin) (d : TaskDescriptor)
    (hf : Reasons engine? lock P f) (ho : (reasonable engine? lock P).asks engine o d) :
    (reasonable engine? lock P).answers (f.register engine o d).1 ∧
      Reasons engine? lock P (f.register engine o d).2 := by
  constructor
  · rintro e he rfl
    exact hf engine ho (Fleet.maySay_of_register he)
  · intro engine' he hsay
    exact hf engine' he hsay.of_register

theorem reasonable_submit (f : Fleet) (engine : EngineId) (o : Origin) (d : TaskDescriptor)
    (schema : Schema) (args : Args) (hf : Reasons engine? lock P f)
    (ho : (reasonable engine? lock P).asks engine o d) :
    (reasonable engine? lock P).admits (f.submit engine o d schema args).1 ∧
      Reasons engine? lock P (f.submit engine o d schema args).2 := by
  constructor
  · rintro result hresult e rfl rfl
    exact hf engine ho (Fleet.maySay_of_settled hresult)
  · intro engine' he hsay
    exact hf engine' he hsay.of_submit

end Terms

/-! ## The lock of a layer -/

namespace Passage

variable {p : Passage} {u : Transform} {v : Value} {x y z : Passing} {us : List Transform}
  {engine : EngineId} {fault : Fault}

/-- A poisoned lock answers at every transformation that the engine is to apply. -/
theorem transform_of_poisoned (he : p.scope.engine = some engine) (hu : u.workflow = false)
    (hx : x.derived.poisoned = true) (v : Value) :
    p.transform u v x = (.error poisonedDerived, x) := by
  simp only [transform, hu, submitDerived, he, ensureDerived, hx]
  rfl

/-- The answer of the lock, at a transformation. -/
theorem reason_of_transform (h : (p.transform u v x).1 = .error poisonedDerived) :
    u.workflow = false ∧ ∃ engine, p.scope.engine = some engine ∧
      (x.derived.poisoned = true ∨
        x.fleet.MaySay engine (.poisoned "transformaciones derivadas")) := by
  cases hu : u.workflow with
  | true =>
    simp only [transform, hu] at h
    obtain ⟨a, -, ha⟩ := mapError_eq_error_iff.1 h
    cases a <;> cases ha
  | false =>
    refine ⟨rfl, ?_⟩
    cases he : p.scope.engine with
    | none =>
      simp only [transform, hu, submitDerived, he] at h
      cases h
    | some engine =>
      refine ⟨engine, rfl, ?_⟩
      let lock := "transformaciones derivadas"
      let P := x.derived.poisoned = true ∨ x.fleet.MaySay engine (.poisoned lock)
      have hwithin : p.Within (reasonable (some engine) lock P) (WithReason lock P) (fun _ => True)
          x.derived :=
        ⟨fun engine' _ _ he' _ _ => he.symm.trans he', fun hx _ => .inl hx⟩
      have hkeeps : (p.askTransform u v x.derived).Keeps (reasonable (some engine) lock P) _ :=
        askTransform_keeps reasonable_allow hwithin (fun _ => trivial) v
      have hreasons : Reasons (some engine) lock P x.fleet := by
        rintro engine' ⟨⟩ hsay
        exact .inr hsay
      rw [transform_eq_run] at h
      exact (hkeeps.run reasonable_register reasonable_submit (fun _ _ _ hf => hf)
        hreasons).1.1 _ h rfl

theorem substitute_append {before : List Transform} (h : p.substitute before x = (.ok (), y))
    (us : List Transform) : p.substitute (before ++ us) x = p.substitute us y := by
  induction before generalizing x with
  | nil =>
    cases h
    rfl
  | cons u before ih =>
    rw [List.cons_append, substitute]
    rw [substitute] at h
    split at h
    · cases h
    · split at h
      · cases h
      · exact ih h

/-- Transformations fail at one of them, unless its target is unknown. -/
theorem substitute_eq_error (h : p.substitute us x = (.error fault, z)) :
    (∃ e, fault = .error (.definition e)) ∨ ∃ before u rest y site v, us = before ++ u :: rest ∧
      p.substitute before x = (.ok (), y) ∧
      y.args.locate p.info.schema u.param = some (site, v) ∧
      p.transform u v y = (.error fault, z) := by
  induction us generalizing x with
  | nil => cases h
  | cons u rest ih =>
    rw [substitute] at h
    cases hlocate : x.args.locate p.info.schema u.param with
    | none =>
      simp only [hlocate] at h
      cases h
      exact .inl ⟨_, rfl⟩
    | some found =>
      obtain ⟨site, v⟩ := found
      simp only [hlocate] at h
      cases hu : p.transform u v x with
      | mk result y =>
        cases result with
        | error fault' =>
          simp only [hu] at h
          cases h
          exact .inr ⟨[], u, rest, x, site, v, rfl, rfl, hlocate, hu⟩
        | ok w =>
          simp only [hu] at h
          obtain he | ⟨before, u', rest', y', site', v', rfl, hbefore, hrest⟩ := ih h
          · exact .inl he
          · refine .inr ⟨u :: before, u', rest', y', site', v', rfl, ?_, hrest⟩
            simp only [substitute, hlocate, hu, hbefore]

/-- A call on its way through a layer comes to a transformation, with the value of its target. -/
def ComesTo (p : Passage) (specs : List Transform) (x : Passing) (u : Transform) (v : Value)
    (y : Passing) : Prop :=
  ∃ before rest site,
    (if x.args.transforms.isEmpty then specs else x.args.transforms) = before ++ u :: rest ∧
      p.substitute before { x with args := { x.args with transforms := [] } } = (.ok (), y) ∧
      y.args.locate p.info.schema u.param = some (site, v)

variable {specs : List Transform}

/-- A layer answers what the transformation answers to which the call comes. -/
theorem beforeCall_of_comesTo (hrole : p.scope.role = .submitter) (h : p.ComesTo specs x u v y)
    (hu : p.transform u v y = (.error fault, z)) : p.beforeCall specs x = (.error fault, z) := by
  obtain ⟨before, rest, site, hforce, hbefore, hlocate⟩ := h
  rw [beforeCall_of_submitter hrole]
  simp only [hforce]
  rw [if_neg (by simp), substitute_append hbefore, substitute, hlocate]
  simp only [hu]

theorem beforeCall_eq_error (h : p.beforeCall specs x = (.error fault, z)) :
    (∃ e, fault = .error (.definition e)) ∨
      ∃ u v y, p.ComesTo specs x u v y ∧ p.transform u v y = (.error fault, z) := by
  by_cases hrole : p.scope.role = .submitter
  · rw [beforeCall_of_submitter hrole] at h
    unfold ComesTo
    dsimp only at h
    generalize (if x.args.transforms.isEmpty then specs else x.args.transforms) = inForce at h ⊢
    split at h
    · cases h
      exact .inl ⟨_, rfl⟩
    · obtain he | ⟨before, u, rest, y, site, v, hforce, hbefore, hlocate, hu⟩ :=
        substitute_eq_error h
      · exact .inl he
      · exact .inr ⟨u, v, y, ⟨before, rest, site, hforce, hbefore, hlocate⟩, hu⟩
  · rw [beforeCall_of_not_submitter hrole] at h
    cases h

end Passage

namespace Session

variable {s : Session} {id : TaskId} {t : Task} {index : Nat} {specs : List Transform}

/-- On the way through a layer the history tells whether its lock is poisoned. -/
theorem poisoned_of_comesTo (hs : ({} : Session).Reaches s) (ht : s.task? id = some t)
    (hlayer : t.declaration.layers[index]? = some (.transformation specs))
    (hrole : s.context.role = .submitter) {args : Args} {u : Transform} {v : Value} {y : Passing}
    (h : (s.passage id t index).ComesTo specs ⟨args, t.derivedAt index, s.fleet⟩ u v y) :
    y.derived.poisoned = true ↔ ∃ e ∈ y.fleet.history, e.poisons? = some ⟨id, some index⟩ := by
  obtain ⟨before, rest, site, -, hbefore, -⟩ := h
  have hasides := substitute_asides ht hlayer hrole before
    ⟨{ args with transforms := [] }, t.derivedAt index, s.fleet⟩
  rw [amid_eq_self ht, hbefore] at hasides
  have htell := (hs.moves hasides.moves).locksTell ⟨id, some index⟩
  rw [poisoned_iff (task?_amid ht y), Task.Poisoned, derivedAt_amid hlayer] at htell
  exact htell

/-! ## The lock of a task -/

/-- Somebody else than a lock may give the answer: the engine that is attached, or one of the layers
if it comes from outside. -/
def MaySay (s : Session) (layers : List Layer) (x : HandoffError) : Prop :=
  Declaration.MaySay layers x ∨ ∃ engine, s.scope.engine = some engine ∧ s.fleet.MaySay engine x

/-- A poisoned lock ends every call of a submitter, and leaves everything as it was. -/
theorem callWithin_of_poisoned (ht : s.task? id = some t) (hrole : s.context.role = .submitter)
    (h : t.registration = .poisoned) (depth : Nat) (args : Args) :
    callWithin (depth + 1) id args s = (.error poisonedRegistration, s) := by
  refine callWithin_of_error ht hrole ?_ depth args
  simp only [ensureRegistered, h]

/-- **The answer of the lock of a task.** Either the lock is poisoned or somebody else may say so.
-/
theorem reason_of_callWithin (ht : s.task? id = some t) {depth : Nat} {args : Args}
    (h : (callWithin depth id args s).1 = .error poisonedRegistration) :
    t.registration = .poisoned ∨
      s.MaySay t.declaration.layers (.poisoned "registro de la tarea") := by
  let lock := "registro de la tarea"
  let P := t.registration = .poisoned ∨ s.MaySay t.declaration.layers (.poisoned lock)
  have hwithin : t.Within id s.scope (reasonable s.scope.engine lock P) (WithReason lock P)
      fun _ => True := {
    asks := fun engine r he _ => he
    poisoned := fun hp _ => .inl hp
    describe := by
      rintro e he rfl
      exact .inr (.inl (Declaration.maySay_of_describe he))
    derived := fun index => ⟨fun engine param d he _ _ => he, fun _ => by simp [WithReason, lock]⟩
    specs := fun _ _ _ _ _ => trivial
    custom := by
      intro c hc args _
      refine ⟨?_, fun _ _ _ => trivial⟩
      rintro e he rfl
      exact .inr (.inl ⟨c, hc, .inr (.inr ⟨_, _, _, he⟩)⟩) }
  have hreasons : Reasons s.scope.engine lock P s.fleet := fun engine he hsay =>
    .inr (.inr ⟨engine, he, hsay⟩)
  exact callWithin_fails reasonable_allow ht hwithin (fun _ _ _ => trivial) reasonable_register
    reasonable_submit (fun _ _ _ hf => hf) hreasons depth _ h rfl

/-! ## Bodies without the locks -/

/-- The layers from outside let every call of a worker through. -/
def LetsThrough (info : TaskInfo) (layers : List Layer) : Prop :=
  ∀ c, .custom c ∈ layers → ∀ args, (c.beforeCall info .worker args).1 = .ok ()

theorem descend_of_worker {info : TaskInfo} {scope : Scope} (hrole : scope.role = .worker)
    (ht : s.task? id = some t) {layers : List Layer} (hlayers : LetsThrough info layers)
    (index : Nat) (args : Args) :
    ∃ args', descend id info scope index layers args s = (.ok args', s) ∧
      ((∀ l ∈ layers, l.isBuiltIn = true) → args'.Agree args) := by
  induction layers generalizing index args with
  | nil => exact ⟨args, rfl, fun _ => .refl args⟩
  | cons layer rest ih =>
    have hrest : LetsThrough info rest := fun c hc => hlayers c (List.mem_cons_of_mem _ hc)
    have hbefore : ∃ c, s.beforeLayer id info scope index layer args = (.ok (), c, s) ∧
        (layer.isBuiltIn = true → c.Agree args) := by
      by_cases hbuiltIn : layer.isBuiltIn = true
      · have hsubmitter : scope.role ≠ .submitter := by simp [hrole]
        obtain ⟨c, hc, heq⟩ := beforeLayer_of_not_submitter info hsubmitter ht hbuiltIn index args
        exact ⟨c, heq, fun _ => hc⟩
      · cases layer with
        | custom c =>
          have hpass := hlayers c List.mem_cons_self args
          refine ⟨(c.beforeCall info .worker args).2, ?_, fun h => absurd h hbuiltIn⟩
          simp only [beforeLayer, hrole, hpass]
        | _ => exact absurd rfl hbuiltIn
    obtain ⟨c, hbefore, hc⟩ := hbefore
    obtain ⟨args', hdescend, hagree⟩ := ih hrest (index + 1) (layer.mark c)
    refine ⟨args', ?_, ?_⟩
    · rw [descend, hbefore]
      exact hdescend
    · intro hall
      obtain ⟨hlayer, hall⟩ := List.forall_mem_cons.1 hall
      exact (hagree hall).trans ((Args.agree_marked ..).trans (hc hlayer))

/-- **Outside of a submitter a body runs, whatever the locks.** It sees the arguments of the call,
unless a layer from outside changes them for a worker. -/
theorem callWithin_of_not_submitter (ht : s.task? id = some t)
    (hrole : s.context.role ≠ .submitter)
    (hlayers : s.context.role = .worker → LetsThrough t.declaration.info t.declaration.layers)
    (depth : Nat) (args : Args) :
    ∃ b, callWithin (depth + 1) id args s = (t.declaration.body b).run
        (callNamed (callWithin depth)) { s with fleet := s.fleet.log (.body id s.context.role) } ∧
      (s.context.role = .unset ∨ (∀ l ∈ t.declaration.layers, l.isBuiltIn = true) →
        b = Bound.of t.declaration.info.schema args.withoutMarkers) := by
  simp only [callWithin, ht, callInScope_eq_enter, enter, approach, present]
  cases hscope : s.context.role with
  | submitter => exact absurd hscope hrole
  | unset =>
    have hscope' : s.scope.role = .unset := hscope
    refine ⟨Bound.of t.declaration.info.schema args.withoutMarkers, ?_, fun _ => rfl⟩
    simp only [hscope', passed, descend, land, land.beginBody, Landing.finish]
  | worker =>
    have hscope' : s.scope.role = .worker := hscope
    obtain ⟨args', hdescend, hagree⟩ := descend_of_worker hscope' ht (hlayers hscope) 0 args
    refine ⟨Bound.of t.declaration.info.schema args'.withoutMarkers, ?_, ?_⟩
    · simp only [hscope', passed, hdescend, land, land.beginBody, Landing.finish]
    · rintro (h | hbuiltIn)
      · cases h
      · rw [Bound.of_agree ((Args.agree_withoutMarkers args').trans (hagree hbuiltIn)),
          Bound.of_agree (Args.agree_withoutMarkers args)]

end Session
end TaskStack
