import TaskStack.Proofs.Session.Descent
import TaskStack.Proofs.Session.HandOver
import Mathlib.Logic.Relation

/-!
# What a call can do to a session

However a call runs, it changes the session in five ways only: it hands over the descriptor of a
task or of a derived task, submits one that was handed over, or runs a body. Each of these is a
move, and says what held before it.

**Theorem (`callWithin_moves`).** Every call, with all the calls made from the bodies that it runs,
is a sequence of moves.

* `Moves.extends`: moves keep the context, the declarations and what was handed over.
* `beforeLayer_asides`: the way through a layer makes moves on account of derived tasks only.
* `present_moves`, `approach_asides`, `land_moves`, `callInScope_moves`: the parts of a call.
-/

namespace TaskStack

/-- A later state of a task: the same declaration, and its descriptor stays handed over. -/
structure Task.Extends (t t' : Task) : Prop where
  declaration : t'.declaration = t.declaration
  registration : ∀ r, t.registration = .done r → t'.registration = .done r

namespace Task.Extends

variable {t t' t'' : Task}

theorem refl (t : Task) : t.Extends t := ⟨rfl, fun _ hr => hr⟩

theorem trans (h : t.Extends t') (h' : t'.Extends t'') : t.Extends t'' :=
  ⟨h'.declaration.trans h.declaration, fun r hr => h'.registration r (h.registration r hr)⟩

end Task.Extends

namespace Session

variable {s s' s'' : Session} {id : TaskId} {t : Task} {index : Nat}

/-! ## Moves -/

/-- The process is a submitter and has the engine. -/
structure Submits (s : Session) (engine : EngineId) : Prop where
  role : s.context.role = .submitter
  engine : s.context.engine = some engine

/-- The session when a call was submitted to an engine. -/
def submitted (s : Session) (engine : EngineId) (origin : Origin) (d : TaskDescriptor)
    (schema : Schema) (args : Args) : Session :=
  { s with fleet := (s.fleet.submit engine origin d schema args).2 }

/-- One of the five things that happen to a session during a call. -/
inductive Move (s : Session) : Session → Prop
  | handOver {id : TaskId} {t : Task} {engine : EngineId} {r : Registered} :
      s.Submits engine → s.task? id = some t → t.registration = .pending →
      Declaration.describe t.declaration.info t.declaration.layers = .ok r →
      Move s (s.handOver engine id t r)
  | handOverDerived {id : TaskId} {t : Task} {engine : EngineId} {index : Nat} {param : String}
      {specs : List Transform} :
      s.Submits engine → s.task? id = some t →
      t.declaration.layers[index]? = some (.transformation specs) →
      (t.derivedAt index).poisoned = false → (t.derivedAt index).descriptors.get? param = none →
      Move s (s.handOverDerived engine id t index param)
  | submitDerived {id : TaskId} {t : Task} {engine : EngineId} {index : Nat} {param : String}
      {d : TaskDescriptor} (args : Args) :
      s.Submits engine → s.task? id = some t →
      (t.derivedAt index).descriptors.get? param = some d →
      Move s (s.submitted engine (.derived id index param) d Derived.schema args)
  | submit {id : TaskId} {t : Task} {engine : EngineId} {r : Registered} (args : Args) :
      s.Submits engine → s.task? id = some t → t.registration = .done r →
      Move s (s.submitted engine (.task id) r.descriptor t.declaration.info.schema args)
  | body {id : TaskId} {t : Task} :
      s.task? id = some t →
      (s.context.role = .submitter → ∃ r, t.registration = .done r) →
      Move s { s with fleet := s.fleet.log (.body id s.context.role) }

/-- A sequence of moves. -/
abbrev Moves : Session → Session → Prop := Relation.ReflTransGen Move

/-- One of the two moves on the way through a layer, both on account of a derived task. -/
inductive Aside (s : Session) : Session → Prop
  | handOver {id : TaskId} {t : Task} {engine : EngineId} {index : Nat} {param : String}
      {specs : List Transform} :
      s.Submits engine → s.task? id = some t →
      t.declaration.layers[index]? = some (.transformation specs) →
      (t.derivedAt index).poisoned = false → (t.derivedAt index).descriptors.get? param = none →
      Aside s (s.handOverDerived engine id t index param)
  | submit {id : TaskId} {t : Task} {engine : EngineId} {index : Nat} {param : String}
      {d : TaskDescriptor} (args : Args) :
      s.Submits engine → s.task? id = some t →
      (t.derivedAt index).descriptors.get? param = some d →
      Aside s (s.submitted engine (.derived id index param) d Derived.schema args)

abbrev Asides : Session → Session → Prop := Relation.ReflTransGen Aside

theorem Aside.move (h : Aside s s') : Move s s' := by
  cases h with
  | handOver hs ht hlayer hp hd => exact .handOverDerived hs ht hlayer hp hd
  | submit args hs ht hd => exact .submitDerived args hs ht hd

theorem Asides.moves (h : Asides s s') : Moves s s' :=
  Relation.ReflTransGen.mono (fun _ _ => Aside.move) _ _ h

/-! ## What moves write -/

theorem handOver_history (s : Session) (engine : EngineId) (id : TaskId) (t : Task)
    (r : Registered) : (s.handOver engine id t r).fleet.history = s.fleet.history ∨
      ∃ answer, (s.handOver engine id t r).fleet.history =
        .register engine (.task id) r.descriptor answer :: s.fleet.history := by
  obtain ⟨-, hf⟩ | ⟨answer, engines, hf⟩ :=
    s.fleet.register_cases engine (.task id) r.descriptor
  · exact .inl (congrArg (·.2.history) hf)
  · exact .inr ⟨answer, congrArg (·.2.history) hf⟩

theorem handOverDerived_history (s : Session) (engine : EngineId) (id : TaskId) (t : Task)
    (index : Nat) (param : String) :
    (s.handOverDerived engine id t index param).fleet.history = s.fleet.history ∨
      ∃ d answer, (s.handOverDerived engine id t index param).fleet.history =
        .register engine (.derived id index param) d answer :: s.fleet.history := by
  obtain ⟨-, hf⟩ | ⟨answer, engines, hf⟩ := s.fleet.register_cases engine
    (.derived id index param) (Derived.descriptor t.declaration.info param)
  · exact .inl (congrArg (·.2.history) hf)
  · exact .inr ⟨_, answer, congrArg (·.2.history) hf⟩

theorem submitted_history (s : Session) (engine : EngineId) (o : Origin) (d : TaskDescriptor)
    (schema : Schema) (args : Args) :
    (s.submitted engine o d schema args).fleet.history = s.fleet.history ∨
      (s.submitted engine o d schema args).fleet.history =
        .submit engine o d schema args :: s.fleet.history := by
  obtain ⟨-, hf⟩ | ⟨admission, engines, hf⟩ := s.fleet.submit_cases engine o d schema args
  · exact .inl (congrArg (·.2.history) hf)
  · exact .inr (congrArg (·.2.history) hf)

/-! ## What moves keep -/

/-- A later state of a session in the same context. -/
structure Extends (s s' : Session) : Prop where
  context : s'.context = s.context
  names : s'.names = s.names
  tasks : ∀ {id t}, s.task? id = some t → ∃ t', s'.task? id = some t' ∧ t.Extends t'
  history : s.fleet.history <:+ s'.fleet.history

namespace Extends

theorem refl (s : Session) : s.Extends s :=
  ⟨rfl, rfl, fun h => ⟨_, h, .refl _⟩, List.suffix_rfl⟩

theorem trans (h : s.Extends s') (h' : s'.Extends s'') : s.Extends s'' where
  context := h'.context.trans h.context
  names := h'.names.trans h.names
  tasks ht := by
    obtain ⟨t', ht', hext⟩ := h.tasks ht
    obtain ⟨t'', ht'', hext'⟩ := h'.tasks ht'
    exact ⟨t'', ht'', hext.trans hext'⟩
  history := h.history.trans h'.history

theorem scope (h : s.Extends s') : s'.scope = s.scope := by rw [Session.scope, h.context]; rfl

theorem submits (h : s.Extends s') {engine : EngineId} (hs : s.Submits engine) :
    s'.Submits engine :=
  ⟨h.context ▸ hs.role, h.context ▸ hs.engine⟩

/-- Changing the engines and one task, forwards. -/
theorem setTask (ht : s.task? id = some t) {t' : Task} (h : t.Extends t') {fleet : Fleet}
    (hf : s.fleet.history <:+ fleet.history) :
    s.Extends ({ s with fleet }.setTask id t') where
  context := rfl
  names := rfl
  tasks {id' u} hu := by
    by_cases hid : id = id'
    · subst hid
      cases ht.symm.trans hu
      exact ⟨t', task?_setTask_self (s := { s with fleet }) ht t', h⟩
    · exact ⟨u, (task?_setTask_of_ne { s with fleet } t' hid).trans hu, .refl u⟩
  history := hf

theorem withFleet {fleet : Fleet} (hf : s.fleet.history <:+ fleet.history) :
    s.Extends { s with fleet } :=
  ⟨rfl, rfl, fun h => ⟨_, h, .refl _⟩, hf⟩

end Extends

theorem Move.extends (h : Move s s') : s.Extends s' := by
  cases h with
  | handOver _ ht hp _ =>
    refine .setTask ht ?_ (Fleet.history_suffix_register ..)
    exact ⟨rfl, fun r hr => by cases hp.symm.trans hr⟩
  | handOverDerived _ ht _ _ _ =>
    refine .setTask ht ?_ (Fleet.history_suffix_register ..)
    exact ⟨rfl, fun _ hr => hr⟩
  | submitDerived _ _ _ _ => exact .withFleet (Fleet.history_suffix_submit ..)
  | submit _ _ _ _ => exact .withFleet (Fleet.history_suffix_submit ..)
  | body _ _ => exact .withFleet (List.suffix_cons _ _)

/-- What every move keeps, a sequence of moves keeps. -/
theorem Moves.keeps {I : Session → Prop} (hmove : ∀ s s', Move s s' → I s → I s')
    (h : Moves s s') (hs : I s) : I s' := by
  induction h with
  | refl => exact hs
  | tail _ hstep ih => exact hmove _ _ hstep ih

theorem Moves.extends (h : Moves s s') : s.Extends s' :=
  h.keeps (fun _ _ hstep hs => hs.trans hstep.extends) (.refl s)

/-! ## Handing over -/

/-- What a hand-over does, and what is known when it succeeds. -/
theorem ensureRegistered_moves (ht : s.task? id = some t) (hrole : s.scope.role = .submitter) :
    Moves s (s.ensureRegistered id t s.scope).2 ∧
      ∀ d, (s.ensureRegistered id t s.scope).1 = .ok d →
        ∃ t' r, (s.ensureRegistered id t s.scope).2.task? id = some t' ∧
          t'.registration = .done r ∧ r.descriptor = d := by
  obtain ⟨fault, h, -⟩ | ⟨r, hr, h⟩ | ⟨engine, r, hp, he, hd, h⟩ :=
    ensureRegistered_cases ht s.scope
  · rw [h]
    exact ⟨.refl, fun _ h => by cases h⟩
  · rw [h]
    exact ⟨.refl, fun d hd => ⟨t, r, ht, hr, Except.ok.inj hd⟩⟩
  · rw [h]
    refine ⟨.single (.handOver ⟨hrole, he⟩ ht hp hd), ?_⟩
    intro d h
    refine ⟨_, r, task?_handOver ht engine r, ?_⟩
    cases hanswer : (s.fleet.register engine (.task id) r.descriptor).1 with
    | ok u =>
      rw [hanswer] at h
      exact ⟨rfl, Except.ok.inj h⟩
    | error fault =>
      rw [hanswer] at h
      cases h

/-! ## Passing through a transformation layer -/

/-- The way of a call that begins now through a layer. -/
def passage (s : Session) (id : TaskId) (t : Task) (index : Nat) : Passage :=
  ⟨t.declaration.info, s.scope, id, index⟩

/-- The session while a call passes through a layer. -/
def amid (s : Session) (id : TaskId) (t : Task) (index : Nat) (x : Passing) : Session :=
  { s with fleet := x.fleet }.setTask id (t.setDerived index x.derived)

theorem amid_eq_self (ht : s.task? id = some t) (args : Args) :
    s.amid id t index ⟨args, t.derivedAt index, s.fleet⟩ = s := by
  rw [amid, Task.setDerived_derivedAt]
  exact setTask_eq_self ht

theorem task?_amid (ht : s.task? id = some t) (x : Passing) :
    (s.amid id t index x).task? id = some (t.setDerived index x.derived) :=
  task?_setTask_self (s := { s with fleet := x.fleet }) ht _

section Passing

variable {specs : List Transform} {engine : EngineId} (ht : s.task? id = some t)
  (hlayer : t.declaration.layers[index]? = some (.transformation specs))
  (hrole : s.scope.role = .submitter)

theorem submits_amid (hrole : s.scope.role = .submitter) (he : s.scope.engine = some engine)
    (x : Passing) : (s.amid id t index x).Submits engine :=
  ⟨hrole, he⟩

include hlayer in
theorem derivedAt_amid (x : Passing) : (t.setDerived index x.derived).derivedAt index = x.derived :=
  t.derivedAt_setDerived_self _ (List.getElem?_eq_some_iff.1 hlayer).1

include hlayer in
/-- A hand-over on the way through a layer. -/
theorem handOverDerived_amid (engine : EngineId) (param : String) (x : Passing) :
    (s.amid id t index x).handOverDerived engine id (t.setDerived index x.derived) index param =
      let d := Derived.descriptor t.declaration.info param
      let asked := x.fleet.register engine (.derived id index param) d
      s.amid id t index
        { x with fleet := asked.2, derived := x.derived.after param d asked.1 } := by
  simp only [handOverDerived, derivedAt_amid hlayer, Task.setDerived_setDerived]
  exact setTask_setTask { s with fleet := _ } ..

include ht hlayer hrole

theorem ensureDerived_asides (he : s.scope.engine = some engine) (param : String) (x : Passing) :
    Asides (s.amid id t index x)
        (s.amid id t index ((s.passage id t index).ensureDerived engine param x).2) ∧
      ∀ d, ((s.passage id t index).ensureDerived engine param x).1 = .ok d →
        ((s.passage id t index).ensureDerived engine param x).2.derived.descriptors.get? param =
          some d := by
  cases hp : x.derived.poisoned with
  | true =>
    rw [Passage.ensureDerived, if_pos hp]
    exact ⟨.refl, fun _ h => by cases h⟩
  | false =>
    cases hd : x.derived.descriptors.get? param with
    | some d =>
      rw [Passage.ensureDerived, if_neg (by simp [hp]), hd]
      refine ⟨.refl, ?_⟩
      intro d' h
      rw [← Except.ok.inj h]
      exact hd
    | none =>
      rw [Passage.ensureDerived_of_new _ _ hp hd]
      constructor
      · have hlayer' := derivedAt_amid hlayer x
        have hmove : Aside (s.amid id t index x) _ :=
          .handOver (submits_amid hrole he x) (task?_amid ht x) hlayer
            (hlayer'.symm ▸ hp) (hlayer'.symm ▸ hd)
        rw [handOverDerived_amid hlayer] at hmove
        exact .single hmove
      · intro d h
        simp only at h ⊢
        cases hanswer : (x.fleet.register engine ((s.passage id t index).origin param)
            (Derived.descriptor (s.passage id t index).info param)).1 with
        | ok u =>
          rw [hanswer] at h
          rw [← Except.ok.inj h]
          exact Dict.get?_insert_self ..
        | error fault =>
          rw [hanswer] at h
          cases h

theorem submitDerived_asides (u : Transform) (v : Value) (x : Passing) :
    Asides (s.amid id t index x)
      (s.amid id t index ((s.passage id t index).submitDerived u v x).2) := by
  cases he : s.scope.engine with
  | none =>
    have he' : (s.passage id t index).scope.engine = none := he
    simp only [Passage.submitDerived, he']
    exact .refl
  | some engine =>
    have he' : (s.passage id t index).scope.engine = some engine := he
    obtain ⟨hmoves, hd⟩ := ensureDerived_asides ht hlayer hrole he u.param x
    simp only [Passage.submitDerived, he']
    generalize (s.passage id t index).ensureDerived engine u.param x = answer at hmoves hd ⊢
    obtain ⟨d | d, y⟩ := answer
    · exact hmoves
    · refine hmoves.tail ?_
      exact .submit (Args.ofPositional [v]) (submits_amid hrole he y) (task?_amid ht y)
        ((derivedAt_amid hlayer y).symm ▸ hd d rfl)

theorem transform_asides (u : Transform) (v : Value) (x : Passing) :
    Asides (s.amid id t index x)
      (s.amid id t index ((s.passage id t index).transform u v x).2) := by
  unfold Passage.transform
  split
  · exact .refl
  · exact submitDerived_asides ht hlayer hrole u v x

theorem substitute_asides (us : List Transform) (x : Passing) :
    Asides (s.amid id t index x)
      (s.amid id t index ((s.passage id t index).substitute us x).2) := by
  induction us generalizing x with
  | nil => exact .refl
  | cons u us ih =>
    rw [Passage.substitute]
    split
    · exact .refl
    · next site v _ =>
      have hmoves := transform_asides ht hlayer hrole u v x
      generalize (s.passage id t index).transform u v x = answer at hmoves ⊢
      obtain ⟨fault | w, y⟩ := answer
      · exact hmoves
      · exact hmoves.trans (ih { y with args := y.args.replace site u.param w })

omit hrole in
theorem beforeCall_asides (x : Passing) :
    Asides (s.amid id t index x)
      (s.amid id t index ((s.passage id t index).beforeCall specs x).2) := by
  by_cases hrole : s.scope.role = .submitter
  · rw [Passage.beforeCall_of_submitter hrole]
    dsimp only
    generalize (if x.args.transforms.isEmpty then specs else x.args.transforms) = inForce
    split
    · exact .refl
    · exact substitute_asides ht hlayer hrole inForce
        { x with args := { x.args with transforms := [] } }
  · rw [Passage.beforeCall_of_not_submitter hrole]
    exact .refl

end Passing

theorem beforeLayer_asides {layer : Layer} (ht : s.task? id = some t)
    (hlayer : t.declaration.layers[index]? = some layer) (args : Args) :
    Asides s (s.beforeLayer id t.declaration.info s.scope index layer args).2.2 := by
  cases layer with
  | transformation specs =>
    have hmoves := beforeCall_asides ht hlayer ⟨args, t.derivedAt index, s.fleet⟩
    rw [amid_eq_self ht] at hmoves
    simp only [beforeLayer, ht]
    exact hmoves
  | task _ => exact .refl
  | constraint _ => exact .refl
  | mpi _ => exact .refl
  | custom c => exact .refl

/-! ## The way down -/

/-- What a call knows on its way to the body: the descriptor it carries was handed over for its
task, and a submitter carries one. -/
structure Carries (s : Session) (id : TaskId) (d : Declaration)
    (descriptor : Option TaskDescriptor) : Prop where
  task : ∃ t, s.task? id = some t ∧ t.declaration = d ∧
    ∀ x, descriptor = some x → ∃ r, t.registration = .done r ∧ r.descriptor = x
  submitter : s.context.role = .submitter → descriptor.isSome

section Calls

variable {callTask : String → Args → Session → Except Fault Value × Session} {d : Declaration}
  {descriptor : Option TaskDescriptor}

theorem Carries.extends (h : s.Carries id d descriptor) (hs : s.Extends s') :
    s'.Carries id d descriptor := by
  obtain ⟨⟨t, ht, rfl, hreg⟩, hsub⟩ := h
  obtain ⟨t', ht', hext⟩ := hs.tasks ht
  constructor
  · refine ⟨t', ht', hext.declaration, ?_⟩
    intro x hx
    obtain ⟨r, hr, hrx⟩ := hreg x hx
    exact ⟨r, hext.registration r hr, hrx⟩
  · intro hrole
    rw [hs.context] at hrole
    exact hsub hrole

/-- A call begins with the hand-over of the descriptor that it will carry. -/
theorem present_moves (ht : s.task? id = some t) :
    Moves s (s.present id t).2 ∧ ∀ x, (s.present id t).1 = .ok x →
      (s.present id t).2.Carries id t.declaration x := by
  unfold present
  split
  · next hrole =>
    obtain ⟨hmoves, hdone⟩ := ensureRegistered_moves ht hrole
    refine ⟨hmoves, ?_⟩
    intro x hx
    cases hanswer : (s.ensureRegistered id t s.scope).1 with
    | error fault =>
      simp only [hanswer] at hx
      cases hx
    | ok descriptor =>
      simp only [hanswer] at hx
      cases hx
      obtain ⟨t', r, ht', hr, rfl⟩ := hdone descriptor hanswer
      obtain ⟨t'', ht'', hext⟩ := hmoves.extends.tasks ht
      cases ht'.symm.trans ht''
      exact ⟨⟨t', ht', hext.declaration, fun x hx => ⟨r, hr, Option.some.inj hx⟩⟩, fun _ => rfl⟩
  · next hrole =>
    refine ⟨.refl, ?_⟩
    intro x hx
    cases hx
    exact ⟨⟨t, ht, rfl, fun _ h => by cases h⟩, fun h => absurd h hrole⟩

/-- The layer that a call comes to is the one at its place. -/
theorem cons_prefix_drop {layer : Layer} {rest layers : List Layer}
    (h : layer :: rest <+: layers.drop index) :
    layers[index]? = some layer ∧ rest <+: layers.drop (index + 1) := by
  obtain ⟨others, hothers⟩ := h
  constructor
  · rw [← List.head?_drop, ← hothers]
    rfl
  · rw [← List.tail_drop, ← hothers]
    exact List.prefix_append ..

/-- The way through layers makes moves on account of derived tasks only. -/
theorem descend_asides {scope : Scope} {layers : List Layer}
    (hlayers : layers <+: d.layers.drop index) (hscope : s.scope = scope)
    (h : s.Carries id d descriptor) (args : Args) :
    Asides s (descend id d.info scope index layers args s).2 := by
  induction layers generalizing index s args with
  | nil => exact .refl
  | cons layer rest ih =>
    obtain ⟨hlayer, hrest⟩ := cons_prefix_drop hlayers
    have hasides : Asides s (s.beforeLayer id d.info scope index layer args).2.2 := by
      obtain ⟨⟨t, ht, rfl, -⟩, -⟩ := h
      exact hscope ▸ beforeLayer_asides ht hlayer args
    rw [descend]
    generalize s.beforeLayer id d.info scope index layer args = answer at hasides ⊢
    obtain ⟨fault | u, args', s'⟩ := answer
    · exact hasides
    · have hext := hasides.moves.extends
      exact hasides.trans (ih hrest (hext.scope.trans hscope) (h.extends hext) _)

theorem passed_prefix (role : Role) (layers : List Layer) : passed role layers <+: layers := by
  cases role with
  | unset => exact List.nil_prefix
  | worker => exact List.prefix_rfl
  | submitter => exact List.prefix_rfl

/-- What comes after the hand-over is on account of derived tasks only. -/
theorem approach_asides (ht : s.task? id = some t) (args : Args) :
    Asides (s.present id t).2 (s.approach id t args).2 ∧
      ∀ x args', (s.approach id t args).1 = .ok (x, args') → (s.present id t).1 = .ok x := by
  obtain ⟨hmoves, hcarries⟩ := s.present_moves ht
  unfold approach
  generalize s.present id t = answer at hmoves hcarries ⊢
  obtain ⟨fault | x, s'⟩ := answer
  · exact ⟨.refl, fun x args' h => by cases h⟩
  · have hlayers : passed s.scope.role t.declaration.layers <+: t.declaration.layers.drop 0 :=
      passed_prefix ..
    have hasides := descend_asides hlayers hmoves.extends.scope (hcarries x rfl) args
    dsimp only
    generalize descend id t.declaration.info s.scope 0 _ args s' = passing at hasides ⊢
    obtain ⟨fault | args', s''⟩ := passing
    · exact ⟨hasides, fun x args' h => by cases h⟩
    · refine ⟨hasides, ?_⟩
      intro x args'' h
      cases h
      rfl

theorem approach_moves (ht : s.task? id = some t) (args : Args) :
    Moves s (s.approach id t args).2 ∧ ∀ x args', (s.approach id t args).1 = .ok (x, args') →
      (s.approach id t args).2.Carries id t.declaration x := by
  obtain ⟨hmoves, hcarries⟩ := s.present_moves ht
  obtain ⟨hasides, hpresent⟩ := s.approach_asides ht args
  refine ⟨hmoves.trans hasides.moves, ?_⟩
  intro x args' h
  exact (hcarries x (hpresent x args' h)).extends hasides.moves.extends

theorem beginBody_moves (h : s.Carries id d descriptor) (args : Args) :
    Moves s (land.beginBody id d s.scope args s).2 := by
  obtain ⟨⟨t, ht, rfl, hreg⟩, hsub⟩ := h
  refine .single (.body ht ?_)
  intro hrole
  obtain ⟨x, hx⟩ := Option.isSome_iff_exists.1 (hsub hrole)
  obtain ⟨r, hr, -⟩ := hreg x hx
  exact ⟨r, hr⟩

theorem land_moves (h : s.Carries id d descriptor) (args : Args) :
    Moves s (land id d s.scope descriptor args s).2 := by
  unfold land
  split
  · next x hrole =>
    split
    · exact .refl
    · next engine he =>
      have hmove : Move s (s.submitted engine (.task id) x d.info.schema args) := by
        obtain ⟨⟨t, ht, rfl, hreg⟩, -⟩ := h
        obtain ⟨r, hr, rfl⟩ := hreg x rfl
        exact .submit args ⟨hrole, he⟩ ht hr
      have hbody := beginBody_moves (h.extends hmove.extends) args
      dsimp only
      split
      · exact .single hmove
      · exact .head hmove hbody
  · exact beginBody_moves h args

/-- The way of a call goes on from where the hand-over left the session. -/
theorem enter_moves_of_present (ht : s.task? id = some t) (args : Args) :
    Moves (s.present id t).2 (s.enter id t args).2 := by
  obtain ⟨hmoves, hcarries⟩ := s.approach_moves ht args
  have hasides := (s.approach_asides ht args).1
  unfold enter
  generalize s.approach id t args = answer at hmoves hcarries hasides ⊢
  obtain ⟨fault | ⟨x, args'⟩, s'⟩ := answer
  · exact hasides.moves
  · have hland := land_moves (hcarries x args' rfl) args'
    rw [hmoves.extends.scope] at hland
    exact hasides.moves.trans hland

theorem enter_moves (ht : s.task? id = some t) (args : Args) : Moves s (s.enter id t args).2 :=
  (present_moves ht).1.trans (enter_moves_of_present ht args)

/-! ## Calls -/

theorem run_moves (hcall : ∀ name args s, Moves s (callTask name args s).2) (p : Program)
    (s : Session) : Moves s (p.run callTask s).2 := by
  induction p generalizing s with
  | done r => exact .refl
  | call task args next ih =>
    have hmoves := hcall task args s
    rw [Program.run]
    generalize callTask task args s = answer at hmoves ⊢
    obtain ⟨fault | v, s'⟩ := answer
    · cases fault with
      | error e => exact hmoves.trans (ih _ s')
      | panic text => exact hmoves
      | tooDeep => exact hmoves
    · exact hmoves.trans (ih _ s')

theorem finish_moves (hcall : ∀ name args s, Moves s (callTask name args s).2) (landing : Landing)
    (s : Session) : Moves s (landing.finish callTask s).2 := by
  cases landing with
  | ended result => exact .refl
  | body program => exact run_moves hcall program s

theorem callInScope_moves_of_present (hcall : ∀ name args s, Moves s (callTask name args s).2)
    (ht : s.task? id = some t) (args : Args) :
    Moves (s.present id t).2 (callInScope callTask id t s.scope args s).2 := by
  rw [callInScope_eq_enter]
  exact (enter_moves_of_present ht args).trans (finish_moves hcall _ _)

theorem callInScope_moves (hcall : ∀ name args s, Moves s (callTask name args s).2)
    (ht : s.task? id = some t) (args : Args) :
    Moves s (callInScope callTask id t s.scope args s).2 := by
  rw [callInScope_eq_enter]
  exact (enter_moves ht args).trans (finish_moves hcall _ _)

theorem callNamed_moves {callTask : TaskId → Args → Session → Except Fault Value × Session}
    (hcall : ∀ id args s, Moves s (callTask id args s).2) (name : String) (args : Args)
    (s : Session) : Moves s (callNamed callTask name args s).2 := by
  unfold callNamed
  split
  · exact .refl
  · exact hcall _ args s

/-- **A call is a sequence of moves.** -/
theorem callWithin_moves (depth : Nat) (id : TaskId) (args : Args) (s : Session) :
    Moves s (callWithin depth id args s).2 := by
  induction depth generalizing id args s with
  | zero => exact .refl
  | succ depth ih =>
    rw [callWithin]
    split
    · exact .refl
    · next t ht => exact callInScope_moves (callNamed_moves ih) ht args

end Calls
end Session
end TaskStack
