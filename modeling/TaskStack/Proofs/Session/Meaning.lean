import TaskStack.Proofs.Call.Agree
import TaskStack.Proofs.Descriptor.Stacking
import TaskStack.Proofs.Engine.Local
import TaskStack.Proofs.Session.Moves

/-!
# What a call means

Take a declaration of built-in layers whose body is a function. Outside the system and in a worker a
call means that function of the bound arguments, whatever its layers are. In a submitter with a
local engine it means the function of the arguments that the transformation layers make, the
outermost first. The marks that the layers put on do not show, because no declared parameter is a
mark; and it does not show either whether a transformation is applied in the process or by the
engine, because the engine hands the value to the same function.

**Theorem (`callWithin_meaning`).** The answer of a call in each of the three roles, and whether its
body has run.

* `Args.throughLayers`: what the transformation layers make of arguments.
* `substitute_of_ready`, `beforeCall_of_ready`: a layer in a submitter.
* `passLayers_of_ready`, `passLayers_of_not_submitter`: all layers.
-/

namespace TaskStack

/-! ## The meaning -/

namespace Args

/-- What transformations make of arguments. Each replaces the value of its target, wherever that
comes from. -/
def transformed (info : TaskInfo) : List Transform → Args → Except Fault Args
  | [], a => .ok a
  | t :: rest, a =>
    match a.locate info.schema t.param with
    | none => .error (.error (.definition (.unknownParameter t.param info.qualifiedName)))
    | some (site, v) =>
      match t.apply v with
      | .error abort => .error abort.fault
      | .ok w => (a.replace site t.param w).transformed info rest

/-- What a transformation layer makes of arguments. It fails when it has nothing to apply. -/
def throughLayer (info : TaskInfo) (specs : List Transform) (a : Args) : Except Fault Args :=
  if specs.isEmpty then .error (.error (.definition (.missingTransform info.qualifiedName)))
  else a.transformed info specs

/-- What transformation layers make of arguments, the outermost first. -/
def throughLayers (info : TaskInfo) : List (List Transform) → Args → Except Fault Args
  | [], a => .ok a
  | specs :: rest, a =>
    match a.throughLayer info specs with
    | .error fault => .error fault
    | .ok b => b.throughLayers info rest

end Args

/-- The transformations of a transformation layer. -/
def Layer.specs? : Layer → Option (List Transform)
  | .transformation specs => some specs
  | _ => none

/-- The transformations that a call goes through, layer by layer. Those that it brought along stand
in for those of the outermost transformation layer. -/
def inForce (layers : List Layer) (brought : List Transform) : List (List Transform) :=
  match layers.filterMap Layer.specs? with
  | [] => []
  | specs :: rest => (if brought.isEmpty then specs else brought) :: rest

theorem inForce_nil (layers : List Layer) : inForce layers [] = layers.filterMap Layer.specs? := by
  unfold inForce
  split
  · next h => exact h.symm
  · next h => exact h.symm

theorem inForce_transformation (specs : List Transform) (rest : List Layer)
    (brought : List Transform) : inForce (.transformation specs :: rest) brought =
      (if brought.isEmpty then specs else brought) :: inForce rest [] := by
  rw [inForce_nil]
  rfl

theorem inForce_of_specs?_eq_none {layer : Layer} (h : layer.specs? = none) (rest : List Layer)
    (brought : List Transform) : inForce (layer :: rest) brought = inForce rest brought := by
  unfold inForce
  rw [List.filterMap_cons_none h]

/-- An accepted declaration of built-in layers whose body is a function. -/
structure Declaration.Computes (d : Declaration) (f : Bound → Except Abort Value) : Prop where
  accepted : Declaration.build d.info d.layers d.body = .ok d
  builtIn : ∀ l ∈ d.layers, l.isBuiltIn = true
  constraint : d.layers.countP Layer.isConstraint ≤ 1
  mpi : d.layers.countP Layer.isMpi ≤ 1
  unmarked : d.info.schema.Unmarked
  body : ∀ b, d.body b = .done (f b)

/-- The descriptors that a call may hand over: that of the task, if it was not, and one for each
transformation that the engine applies. -/
def Task.handOvers (t : Task) (args : Args) : List TaskDescriptor :=
  let own := match t.registration, Declaration.describe t.declaration.info t.declaration.layers with
    | .pending, .ok r => [r.descriptor]
    | _, _ => []
  let derived := (inForce t.declaration.layers args.transforms).flatten.filter (!·.workflow)
  own ++ derived.map fun u => Derived.descriptor t.declaration.info u.param

/-! ## A layer in a submitter -/

section Layer

variable {p : Passage} {engine : EngineId} {ds : List TaskDescriptor} {x : Passing}

/-- Nothing keeps a call from passing through a layer. -/
structure Passing.Ready (x : Passing) (engine : EngineId) (ds : List TaskDescriptor) : Prop where
  derived : x.derived.poisoned = false
  serves : x.fleet.Serves engine ds

/-- Descriptors that are told apart by their signatures. -/
def ToldApart (ds : List TaskDescriptor) : Prop :=
  ∀ d ∈ ds, ∀ d' ∈ ds, d.canonicalSignature = d'.canonicalSignature → d = d'

namespace Passage

theorem ensureDerived_of_ready (hx : x.Ready engine ds) (hds : ToldApart ds) {param : String}
    (hparam : Derived.descriptor p.info param ∈ ds) :
    ∃ d y, p.ensureDerived engine param x = (.ok d, y) ∧ y.Ready engine ds ∧ y.args = x.args ∧
      y.fleet.bodies = x.fleet.bodies := by
  cases hd : x.derived.descriptors.get? param with
  | some d =>
    refine ⟨d, x, ?_, hx, rfl, rfl⟩
    rw [ensureDerived, if_neg (by simp [hx.derived]), hd]
  | none =>
    obtain ⟨hanswer, hserves⟩ :=
      Fleet.register_of_serves hx.serves hds hparam (p.origin param)
    rw [ensureDerived_of_new p engine hx.derived hd]
    simp only [hanswer]
    exact ⟨_, _, rfl, ⟨hx.derived, hserves⟩, rfl, Fleet.bodies_register ..⟩

/-- The engine applies a transformation by handing the value to its function. -/
theorem body_ofPositional (t : Transform) (v : Value) :
    Derived.body t (Bound.of Derived.schema (Args.ofPositional [v]).withoutMarkers) =
      t.apply v := by
  rfl

theorem submitDerived_of_ready (hengine : p.scope.engine = some engine) (hx : x.Ready engine ds)
    (hds : ToldApart ds) {t : Transform} (ht : Derived.descriptor p.info t.param ∈ ds)
    (v : Value) :
    ∃ y, p.submitDerived t v x = ((t.apply v).mapError Abort.fault, y) ∧ y.Ready engine ds ∧
      y.args = x.args ∧ y.fleet.bodies = x.fleet.bodies := by
  obtain ⟨d, y, hd, hy, hargs, hbodies⟩ := ensureDerived_of_ready hx hds ht
  obtain ⟨hrun, hserves⟩ := Fleet.submit_of_serves hy.serves (p.origin t.param) d Derived.schema
    (Args.ofPositional [v])
  simp only [submitDerived, hengine, hd, hrun, body_ofPositional]
  exact ⟨_, rfl, ⟨hy.derived, hserves⟩, hargs, (Fleet.bodies_submit ..).trans hbodies⟩

/-- It does not show who applies a transformation. -/
theorem transform_of_ready (hengine : p.scope.engine = some engine) (hx : x.Ready engine ds)
    (hds : ToldApart ds) {t : Transform}
    (ht : t.workflow = false → Derived.descriptor p.info t.param ∈ ds) (v : Value) :
    ∃ y, p.transform t v x = ((t.apply v).mapError Abort.fault, y) ∧ y.Ready engine ds ∧
      y.args = x.args ∧ y.fleet.bodies = x.fleet.bodies := by
  unfold transform
  cases hworkflow : t.workflow with
  | true => exact ⟨x, rfl, hx, rfl, rfl⟩
  | false => exact submitDerived_of_ready hengine hx hds (ht hworkflow) v

/-- Going through transformations, each on arguments that carry marks. -/
theorem substitute_of_ready (hengine : p.scope.engine = some engine)
    (hs : p.info.schema.Unmarked) (hds : ToldApart ds) {ts : List Transform}
    (hts : ∀ t ∈ ts, t.workflow = false → Derived.descriptor p.info t.param ∈ ds)
    (hx : x.Ready engine ds) {a : Args} (ha : x.args.Agree a) :
    ∃ y, y.Ready engine ds ∧ y.fleet.bodies = x.fleet.bodies ∧
      match a.transformed p.info ts with
      | .error fault => p.substitute ts x = (.error fault, y)
      | .ok b => p.substitute ts x = (.ok (), y) ∧ y.args.Agree b ∧
          y.args.transforms = x.args.transforms := by
  induction ts generalizing x a with
  | nil => exact ⟨x, hx, rfl, rfl, ha, rfl⟩
  | cons t rest ih =>
    obtain ⟨ht, hrest⟩ := List.forall_mem_cons.1 hts
    rw [Args.transformed, substitute, ha.locate_eq hs]
    cases a.locate p.info.schema t.param with
    | none => exact ⟨x, hx, rfl, rfl⟩
    | some found =>
      obtain ⟨site, v⟩ := found
      obtain ⟨y, hy, hready, hargs, hbodies⟩ := transform_of_ready hengine hx hds ht v
      dsimp only
      rw [hy]
      cases t.apply v with
      | error abort => exact ⟨y, hready, hbodies, rfl⟩
      | ok w =>
        have hagree : (y.args.replace site t.param w).Agree (a.replace site t.param w) := by
          rw [hargs]
          exact ha.replace site t.param w
        obtain ⟨z, hz, hzbodies, hmatch⟩ := ih hrest
          (x := { y with args := y.args.replace site t.param w }) ⟨hready.derived, hready.serves⟩
          hagree
        simp only [Args.transforms_replace, hargs] at hmatch
        refine ⟨z, hz, hzbodies.trans hbodies, ?_⟩
        simp only [Except.mapError, hargs]
        exact hmatch

/-- The transformations that a call brought along are used up by the layer. -/
theorem beforeCall_of_ready (hrole : p.scope.role = .submitter)
    (hengine : p.scope.engine = some engine) (hs : p.info.schema.Unmarked) (hds : ToldApart ds)
    {specs ts : List Transform}
    (hforce : (if x.args.transforms.isEmpty then specs else x.args.transforms) = ts)
    (hts : ∀ t ∈ ts, t.workflow = false → Derived.descriptor p.info t.param ∈ ds)
    (hx : x.Ready engine ds) {a : Args} (ha : x.args.Agree a) :
    ∃ y, y.Ready engine ds ∧ y.fleet.bodies = x.fleet.bodies ∧
      match a.throughLayer p.info ts with
      | .error fault => p.beforeCall specs x = (.error fault, y)
      | .ok b => p.beforeCall specs x = (.ok (), y) ∧ y.args.Agree b ∧ y.args.transforms = [] := by
  rw [beforeCall_of_submitter hrole, Args.throughLayer]
  simp only [hforce]
  cases ts.isEmpty with
  | true =>
    exact ⟨{ x with args := { x.args with transforms := [] } }, ⟨hx.derived, hx.serves⟩, rfl, rfl⟩
  | false =>
    exact substitute_of_ready hengine hs hds hts
      (x := { x with args := { x.args with transforms := [] } }) ⟨hx.derived, hx.serves⟩
      ⟨ha.positional, ha.named⟩

end Passage
end Layer

namespace Session

variable {s : Session} {id : TaskId} {t : Task} {d : Declaration} {f : Bound → Except Abort Value}
  (callTask : String → Args → Session → Except Fault Value × Session)

/-! ## The body -/

/-- A body that is a function of the arguments meant for it. -/
theorem runBody_of_computes (hd : d.Computes f) (role : Role) {a b : Args} (h : a.Agree b) :
    runBody callTask id d role a s = ((f (Bound.of d.info.schema b)).mapError Abort.fault,
      { s with fleet := s.fleet.log (.body id role) }) := by
  rw [runBody, hd.body, Bound.of_agree ((Args.agree_withoutMarkers a).trans h)]
  rfl

/-! ## One layer of a call -/

section Step

variable {info : TaskInfo} {scope : Scope} {index : Nat} {layer : Layer} {rest : List Layer}
  {inner : Args → Session → Except Fault Value × Session} {a b : Args} {s' : Session}

theorem beforeLayer_of_specs?_eq_none (hl : layer.isBuiltIn = true) (h : layer.specs? = none) :
    s.beforeLayer id info scope index layer a = (.ok (), a, s) := by
  cases layer with
  | custom c => cases hl
  | transformation specs => cases h
  | _ => rfl

theorem passLayers_of_ok (h : s.beforeLayer id info scope index layer a = (.ok (), b, s')) :
    passLayers id info scope inner index (layer :: rest) a s =
      let answer := passLayers id info scope inner (index + 1) rest (layer.mark b) s'
      (answer.1, b, answer.2.2) := by
  rw [passLayers, h]
  rfl

theorem passLayers_of_error {fault : Fault}
    (h : s.beforeLayer id info scope index layer a = (.error fault, b, s')) :
    passLayers id info scope inner index (layer :: rest) a s = (.error fault, b, s') := by
  rw [passLayers, h]

end Step

/-! ## All layers, in a worker -/

theorem beforeLayer_of_not_submitter (info : TaskInfo) {scope : Scope}
    (hrole : scope.role ≠ .submitter) (ht : s.task? id = some t) {layer : Layer}
    (hlayer : layer.isBuiltIn = true) (index : Nat) (a : Args) :
    ∃ c : Args, c.Agree a ∧ s.beforeLayer id info scope index layer a = (.ok (), c, s) := by
  cases layer with
  | custom c => cases hlayer
  | task _ => exact ⟨a, .refl a, rfl⟩
  | constraint _ => exact ⟨a, .refl a, rfl⟩
  | mpi _ => exact ⟨a, .refl a, rfl⟩
  | transformation specs =>
    refine ⟨{ a with transforms := [] }, ⟨rfl, fun _ _ => rfl⟩, ?_⟩
    have hself : s.amid id t index ⟨{ a with transforms := [] }, t.derivedAt index, s.fleet⟩ =
        s := amid_eq_self ht _
    simp only [beforeLayer, ht]
    rw [Passage.beforeCall_of_not_submitter hrole]
    exact Prod.ext rfl (Prod.ext rfl hself)

/-- Outside of a submitter the layers only mark the arguments. -/
theorem passLayers_of_not_submitter (info : TaskInfo) {scope : Scope}
    (hrole : scope.role ≠ .submitter) (ht : s.task? id = some t)
    (inner : Args → Session → Except Fault Value × Session) {layers : List Layer}
    (hlayers : ∀ l ∈ layers, l.isBuiltIn = true) (index : Nat) (a : Args) :
    ∃ b after, b.Agree a ∧
      passLayers id info scope inner index layers a s = ((inner b s).1, after, (inner b s).2) := by
  induction layers generalizing index a with
  | nil => exact ⟨a, a, .refl a, rfl⟩
  | cons layer rest ih =>
    obtain ⟨hlayer, hrest⟩ := List.forall_mem_cons.1 hlayers
    obtain ⟨c, hc, hbefore⟩ := beforeLayer_of_not_submitter info hrole ht hlayer index a
    obtain ⟨b, after, hb, hpass⟩ := ih hrest (index + 1) (c.marked layer.prepend layer.markers)
    refine ⟨b, c, hb.trans ((Args.agree_marked ..).trans hc), ?_⟩
    rw [passLayers, hbefore]
    simp only [Args.within, hpass]

/-! ## All layers, in a submitter -/

section Submitter

variable {engine : EngineId} {ds : List TaskDescriptor}

/-- Nothing keeps a call of the task from passing through the layers. -/
structure Ready (s : Session) (id : TaskId) (d : Declaration) (engine : EngineId)
    (ds : List TaskDescriptor) : Prop where
  task : ∃ t, s.task? id = some t ∧ t.declaration = d ∧
    ∀ index, (t.derivedAt index).poisoned = false
  serves : s.fleet.Serves engine ds

theorem poisoned_derivedAt_setDerived (t : Task) (index index' : Nat) {x : Derived}
    (hx : x.poisoned = false) (ht : ∀ index, (t.derivedAt index).poisoned = false) :
    ((t.setDerived index x).derivedAt index').poisoned = false := by
  by_cases hne : index = index'
  · subst hne
    by_cases hlt : index < t.declaration.layers.length
    · rw [t.derivedAt_setDerived_self x hlt, hx]
    · have hout : (t.setDerived index x).derived[index]? = none :=
        List.getElem?_eq_none (by
          rw [(t.setDerived index x).derived_length]
          exact Nat.le_of_not_lt hlt)
      rw [Task.derivedAt, List.getD_eq_getElem?_getD, hout]
      rfl
  · rw [t.derivedAt_setDerived_of_ne x hne]
    exact ht index'

/-- The session after a call has passed through a layer. -/
theorem Ready.amid (hs : s.Ready id d engine ds) (ht : s.task? id = some t) {y : Passing}
    (hy : y.Ready engine ds) (index : Nat) : (s.amid id t index y).Ready id d engine ds := by
  obtain ⟨⟨t', ht', rfl, hderived⟩, -⟩ := hs
  cases ht'.symm.trans ht
  refine ⟨⟨_, task?_amid ht y, rfl, ?_⟩, hy.serves⟩
  intro index'
  exact poisoned_derivedAt_setDerived _ _ _ hy.derived hderived

/-- The end of the way: the engine runs the submission, which is the body. -/
theorem innermost_of_ready (hd : d.Computes f) (hs : s.Ready id d engine ds) {a b : Args}
    (h : a.Agree b) (x : TaskDescriptor) :
    let answer := innermost callTask id d ⟨.submitter, some engine⟩ (some x) a s
    answer.1 = (f (Bound.of d.info.schema b)).mapError Abort.fault ∧
      answer.2.fleet.bodies = (id, .submitter) :: s.fleet.bodies := by
  obtain ⟨hrun, -⟩ := Fleet.submit_of_serves hs.serves (.task id) x d.info.schema a
  simp only [innermost, hrun, runBody_of_computes callTask hd .submitter h, Fleet.bodies_log_body,
    Fleet.bodies_submit, and_self]

/-- A call passes through a transformation layer. -/
theorem beforeLayer_of_ready (hunmarked : d.info.schema.Unmarked) (hds : ToldApart ds)
    (hs : s.Ready id d engine ds) {a b : Args} (h : a.Agree b) {specs ts : List Transform}
    (hforce : (if a.transforms.isEmpty then specs else a.transforms) = ts)
    (hts : ∀ u ∈ ts, u.workflow = false → Derived.descriptor d.info u.param ∈ ds) (index : Nat) :
    ∃ c s', s'.Ready id d engine ds ∧ s'.fleet.bodies = s.fleet.bodies ∧
      let answer :=
        s.beforeLayer id d.info ⟨.submitter, some engine⟩ index (.transformation specs) a
      match b.throughLayer d.info ts with
      | .error fault => answer = (.error fault, c, s')
      | .ok b' => answer = (.ok (), c, s') ∧ c.Agree b' ∧ c.transforms = [] := by
  have hready := hs
  obtain ⟨⟨t, ht, rfl, hderived⟩, hserves⟩ := hs
  let p : Passage := ⟨t.declaration.info, ⟨.submitter, some engine⟩, id, index⟩
  obtain ⟨y, hy, hbodies, hmatch⟩ := Passage.beforeCall_of_ready (p := p) rfl rfl hunmarked hds
    (x := ⟨a, t.derivedAt index, s.fleet⟩) hforce hts ⟨hderived index, hserves⟩ h
  refine ⟨y.args, s.amid id t index y, hready.amid ht hy index, hbodies, ?_⟩
  simp only [beforeLayer, ht]
  cases hlayer : b.throughLayer t.declaration.info ts with
  | error fault =>
    simp only [p, hlayer] at hmatch
    rw [hmatch]
    rfl
  | ok b' =>
    simp only [p, hlayer] at hmatch
    rw [hmatch.1]
    exact ⟨rfl, hmatch.2⟩

/-- **The way through the layers in a submitter.** -/
theorem passLayers_of_ready (hd : d.Computes f) (hds : ToldApart ds) {layers : List Layer}
    (hlayers : ∀ l ∈ layers, l.isBuiltIn = true) (x : TaskDescriptor) {a b : Args}
    (h : a.Agree b)
    (hforce : ∀ ts ∈ inForce layers a.transforms, ∀ u ∈ ts, u.workflow = false →
      Derived.descriptor d.info u.param ∈ ds)
    (hs : s.Ready id d engine ds) {scope : Scope} (hscope : scope = ⟨.submitter, some engine⟩)
    (index : Nat) :
    let answer :=
      passLayers id d.info scope (innermost callTask id d scope (some x)) index layers a s
    match b.throughLayers d.info (inForce layers a.transforms) with
    | .ok c => answer.1 = (f (Bound.of d.info.schema c)).mapError Abort.fault ∧
        answer.2.2.fleet.bodies = (id, .submitter) :: s.fleet.bodies
    | .error fault => answer.1 = .error fault ∧ answer.2.2.fleet.bodies = s.fleet.bodies := by
  subst hscope
  induction layers generalizing index s a b with
  | nil => exact innermost_of_ready callTask hd hs h x
  | cons layer rest ih =>
    obtain ⟨hlayer, hrest⟩ := List.forall_mem_cons.1 hlayers
    cases hspecs : layer.specs? with
    | none =>
      rw [inForce_of_specs?_eq_none hspecs] at hforce ⊢
      rw [passLayers_of_ok (beforeLayer_of_specs?_eq_none hlayer hspecs)]
      have hrec := ih hrest ((Args.agree_marked a layer.prepend layer.markers).trans h)
        (by rwa [Args.transforms_marked]) hs (index + 1)
      rwa [Args.transforms_marked] at hrec
    | some specs =>
      have hlayer' : layer = .transformation specs := by
        cases layer with
        | transformation specs' => exact congrArg Layer.transformation (Option.some.inj hspecs)
        | _ => cases hspecs
      subst hlayer'
      rw [inForce_transformation] at hforce ⊢
      obtain ⟨hts, hforce⟩ := List.forall_mem_cons.1 hforce
      obtain ⟨c, s', hs', hbodies, hmatch⟩ :=
        beforeLayer_of_ready hd.unmarked hds hs h rfl hts index
      rw [Args.throughLayers]
      cases hlayer : b.throughLayer d.info
          (if a.transforms.isEmpty then specs else a.transforms) with
      | error fault =>
        simp only [hlayer] at hmatch
        simp only [passLayers_of_error hmatch, hbodies, and_self]
      | ok b' =>
        simp only [hlayer] at hmatch
        obtain ⟨hbefore, hc, hnone⟩ := hmatch
        rw [passLayers_of_ok hbefore]
        have hmarked : ((Layer.transformation specs).mark c).transforms = [] :=
          (Args.transforms_marked ..).trans hnone
        have hagree : ((Layer.transformation specs).mark c).Agree b' :=
          (Args.agree_marked ..).trans hc
        have hrec := ih hrest hagree (by rwa [hmarked]) hs' (index + 1)
        rw [hmarked, hbodies] at hrec
        exact hrec

end Submitter

/-! ## Handing over -/

/-- The process is a submitter, and its engine is local and takes what the call hands over. No
hand-over for the task has panicked. -/
structure Accepts (s : Session) (t : Task) (args : Args) : Prop where
  role : s.context.role = .submitter
  engine : ∃ engine, s.context.engine = some engine ∧ s.fleet.Serves engine (t.handOvers args)
  registration : t.registration ≠ .poisoned
  derived : ∀ x ∈ t.derived, x.poisoned = false

theorem mem_handOvers {args : Args} {x : TaskDescriptor} (h : x ∈ t.handOvers args) :
    (∃ r, t.registration = .pending ∧
      Declaration.describe t.declaration.info t.declaration.layers = .ok r ∧ x = r.descriptor) ∨
    ∃ param, x = Derived.descriptor t.declaration.info param := by
  rw [Task.handOvers] at h
  rcases List.mem_append.1 h with hown | hderived
  · split at hown
    · next r hp hr => exact .inl ⟨r, hp, hr, List.mem_singleton.1 hown⟩
    · cases hown
  · obtain ⟨u, -, rfl⟩ := List.mem_map.1 hderived
    exact .inr ⟨u.param, rfl⟩

theorem descriptor_mem_handOvers {args : Args} {ts : List Transform}
    (hts : ts ∈ inForce t.declaration.layers args.transforms) {u : Transform} (hu : u ∈ ts)
    (hw : u.workflow = false) :
    Derived.descriptor t.declaration.info u.param ∈ t.handOvers args := by
  refine List.mem_append_right _ (List.mem_map.2 ⟨u, List.mem_filter.2 ⟨?_, by simp [hw]⟩, rfl⟩)
  exact List.mem_flatten.2 ⟨ts, hts, hu⟩

/-- What a call hands over is told apart by the signatures. -/
theorem toldApart_handOvers (hd : t.declaration.Computes f) (args : Args) :
    ToldApart (t.handOvers args) := by
  have hown : ∀ {r : Registered},
      Declaration.describe t.declaration.info t.declaration.layers = .ok r →
      r.descriptor.canonicalSignature = t.declaration.info.qualifiedName :=
    Declaration.canonicalSignature_of_describe _ hd.builtIn
      (Declaration.countP_of_build hd.accepted) hd.constraint hd.mpi
  intro x hx y hy hsignature
  obtain ⟨r, -, hr, rfl⟩ | ⟨p, rfl⟩ := mem_handOvers hx
  · obtain ⟨r', -, hr', rfl⟩ | ⟨q, rfl⟩ := mem_handOvers hy
    · cases hr.symm.trans hr'
      rfl
    · exact absurd (hsignature.symm.trans (hown hr)) (Derived.signature_ne_qualifiedName _ _)
  · obtain ⟨r', -, hr', rfl⟩ | ⟨q, rfl⟩ := mem_handOvers hy
    · exact absurd (hsignature.trans (hown hr')) (Derived.signature_ne_qualifiedName _ _)
    · rw [Derived.signature_injective _ hsignature]

theorem ensureRegistered_of_accepts (hd : t.declaration.Computes f) (ht : s.task? id = some t)
    {args : Args} (h : s.Accepts t args) {engine : EngineId}
    (hengine : s.context.engine = some engine) :
    ∃ x s', s.ensureRegistered id t s.scope = (.ok x, s') ∧
      s'.Ready id t.declaration engine (t.handOvers args) ∧ s'.fleet.bodies = s.fleet.bodies := by
  obtain ⟨hrole, ⟨engine', hengine', hserves⟩, hregistration, hderived⟩ := h
  cases hengine.symm.trans hengine'
  have hpoisoned : ∀ index, (t.derivedAt index).poisoned = false := by
    intro index
    rw [Task.derivedAt, List.getD_eq_getElem?_getD]
    cases hindex : t.derived[index]? with
    | none => rfl
    | some x => exact hderived x (List.mem_of_getElem? hindex)
  cases hreg : t.registration with
  | poisoned => exact absurd hreg hregistration
  | done r =>
    refine ⟨r.descriptor, s, ?_, ⟨⟨t, ht, rfl, hpoisoned⟩, hserves⟩, rfl⟩
    simp only [ensureRegistered, hreg]
  | pending =>
    obtain ⟨r, hr, -⟩ := Declaration.describe_of_countP_le t.declaration.info hd.builtIn
      (Declaration.countP_of_build hd.accepted) hd.constraint hd.mpi
    have hmem : r.descriptor ∈ t.handOvers args := by
      refine List.mem_append_left _ ?_
      rw [hreg, hr]
      exact List.mem_singleton_self _
    obtain ⟨hanswer, hserves'⟩ :=
      Fleet.register_of_serves hserves (toldApart_handOvers hd args) hmem (.task id)
    refine ⟨r.descriptor, s.handOver engine id t r, ?_,
      ⟨⟨_, task?_handOver ht engine r, rfl, hpoisoned⟩, hserves'⟩, Fleet.bodies_register ..⟩
    rw [ensureRegistered_of_pending ht hreg hengine hr, hanswer]
    rfl

/-! ## The three roles -/

theorem callInScope_of_not_submitter (ht : s.task? id = some t) (hd : t.declaration.Computes f)
    (hrole : s.scope.role ≠ .submitter) (args : Args) :
    callInScope callTask id t s.scope args s =
      ((f (Bound.of t.declaration.info.schema args)).mapError Abort.fault,
        { s with fleet := s.fleet.log (.body id s.scope.role) }) := by
  cases hscope : s.scope.role with
  | submitter => exact absurd hscope hrole
  | unset =>
    simp only [callInScope, hscope]
    exact runBody_of_computes callTask hd .unset (.refl args)
  | worker =>
    obtain ⟨b, after, hb, hpass⟩ := passLayers_of_not_submitter t.declaration.info hrole ht
      (innermost callTask id t.declaration s.scope none) hd.builtIn 0 args
    simp only [callInScope, hscope, callInScope.through, hpass, innermost]
    exact runBody_of_computes callTask hd .worker hb

theorem callInScope_of_accepts (ht : s.task? id = some t) (hd : t.declaration.Computes f)
    {args : Args} (h : s.Accepts t args) :
    let answer := callInScope callTask id t s.scope args s
    match args.throughLayers t.declaration.info
        (inForce t.declaration.layers args.transforms) with
    | .ok a => answer.1 = (f (Bound.of t.declaration.info.schema a)).mapError Abort.fault ∧
        answer.2.fleet.bodies = (id, .submitter) :: s.fleet.bodies
    | .error fault => answer.1 = .error fault ∧ answer.2.fleet.bodies = s.fleet.bodies := by
  obtain ⟨engine, hengine, -⟩ := h.engine
  obtain ⟨x, s', hens, hready, hbodies⟩ := ensureRegistered_of_accepts hd ht h hengine
  have hscope : s.scope = ⟨.submitter, some engine⟩ := by
    rw [scope, h.role, hengine]
  have hpass := passLayers_of_ready callTask hd (toldApart_handOvers hd args)
    hd.builtIn x (.refl args) (fun ts hts u hu hw => descriptor_mem_handOvers hts hu hw) hready
    hscope 0
  rw [hbodies] at hpass
  have hrole : s.scope.role = .submitter := h.role
  simp only [callInScope, hrole, hens, callInScope.through]
  exact hpass

/-- **What a call means.** -/
theorem callWithin_meaning (ht : s.task? id = some t) (hd : t.declaration.Computes f)
    (depth : Nat) (args : Args) :
    let answer := callWithin (depth + 1) id args s
    (s.context.role ≠ .submitter →
      answer.1 = (f (Bound.of t.declaration.info.schema args)).mapError Abort.fault ∧
        answer.2.fleet.bodies = (id, s.context.role) :: s.fleet.bodies) ∧
    (s.Accepts t args →
      match args.throughLayers t.declaration.info
          (inForce t.declaration.layers args.transforms) with
      | .ok a => answer.1 = (f (Bound.of t.declaration.info.schema a)).mapError Abort.fault ∧
          answer.2.fleet.bodies = (id, .submitter) :: s.fleet.bodies
      | .error fault => answer.1 = .error fault ∧ answer.2.fleet.bodies = s.fleet.bodies) := by
  intro answer
  have hanswer : answer = callInScope (callNamed (callWithin depth)) id t s.scope args s := by
    simp only [answer, callWithin, ht]
  rw [hanswer]
  constructor
  · intro hrole
    rw [callInScope_of_not_submitter _ ht hd hrole]
    exact ⟨rfl, rfl⟩
  · exact callInScope_of_accepts _ ht hd

/-- Turns a flag around. -/
def turn : TransformFunction
  | .bool b, _ => .ok (.bool (!b))
  | _, _ => .error (.failure "no es un booleano")

/-- A flag that is turned around by the engine, in the process, and by the engine again. -/
theorem callWithin_meaning_flag :
    let info : TaskInfo := ⟨"demo", "echo", { params := [{ name := "flag" }] }⟩
    let specs : List Transform := [⟨"flag", turn, ∅, false⟩, ⟨"flag", turn, ∅, true⟩,
      ⟨"flag", turn, ∅, false⟩]
    let d : Declaration := ⟨info, [.transformation specs, .task {}],
      fun b => .done (b.require "flag")⟩
    let s : Session := ⟨⟨.submitter, some 0⟩, ⟨[{}], []⟩, [.new d], ∅⟩
    (callWithin 1 0 (Args.ofPositional [.bool true]) s).1 = .ok (.bool false) := by
  intro info specs d s
  have hd : d.Computes (·.require "flag") := by
    refine ⟨rfl, ?_, by decide, by decide, ?_, fun _ => rfl⟩
    · simp [d, Layer.isBuiltIn]
    · simp [d, info, Schema.Unmarked, Marker.isMarker]
  have ht : s.task? 0 = some (.new d) := rfl
  have hdescribe : Declaration.describe info d.layers = .ok ⟨{
      canonicalSignature := "demo.echo", implementationSignature := some "demo.echo",
      implementationType := some .plain, io := some false,
      implementationArgs := some ["demo", "echo"] }, "@task"⟩ := rfl
  have htakes : ∀ x, x ∈ Task.handOvers (.new d) (Args.ofPositional [.bool true]) →
      ({} : Ledger).Takes x := by
    intro x hx
    refine Ledger.takes_iff.2 ⟨?_, fun _ h => by cases h⟩
    obtain ⟨r, -, hr, rfl⟩ | ⟨param, rfl⟩ := mem_handOvers hx
    · cases hdescribe.symm.trans hr
      rfl
    · exact Derived.validate_descriptor info param
  have hs : s.Accepts (.new d) (Args.ofPositional [.bool true]) :=
    ⟨rfl, ⟨0, rfl, {}, rfl, ⟨rfl, rfl, rfl⟩, htakes⟩, by simp [Task.new], by simp [Task.new]⟩
  exact ((callWithin_meaning ht hd 0 (Args.ofPositional [.bool true])).2 hs).1

end Session
end TaskStack
