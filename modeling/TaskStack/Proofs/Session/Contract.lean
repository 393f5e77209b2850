import TaskStack.Proofs.Descriptor.Contract
import TaskStack.Proofs.Session.Moves

/-!
# No call lacks a signature

The base layer names the task, and a stack is accepted only with a base layer. So the descriptor of
an accepted stack is always sealed, and so are those of its derived tasks. A call can still end in
the failure that says otherwise, because an engine may answer a submission with any failure it
likes; but then an engine has said so, and not the declaration.

**Theorem (`makes_keepsContract`).** Everything that an accepted declaration of built-in layers
hands over keeps the contract, and a local engine refuses it only for another descriptor that it
holds under the same signature. The descriptor is made by one of the layers. A call lacks a
signature only if an engine answers a submission so.

* `Moves.mayAnswer`: what engines may answer comes from before the call.
* `approach_unsigned`, `land_unsigned`, `run_ne_unsigned`: the parts of a call.
-/

namespace TaskStack

theorem mapError_eq_error_iff {α β γ : Type} {f : α → β} {r : Except α γ} {b : β} :
    r.mapError f = .error b ↔ ∃ a, r = .error a ∧ f a = b := by
  cases r <;> simp [Except.mapError]

/-! ## What engines may answer -/

/-- The engine has an answer to a submission in its script that is this failure. -/
def Engine.MayAnswer (e : Engine) (x : TaskError) : Prop :=
  ∃ result signature, .answer result ∈ e.submitScript ∧ result signature = .error x

namespace Engine

variable {e : Engine} {x : TaskError}

theorem not_mayAnswer_of_isLocal (h : e.IsLocal) : ¬ e.MayAnswer x := by
  rintro ⟨result, signature, hmem, -⟩
  rw [h.submitScript] at hmem
  cases hmem

theorem MayAnswer.of_subset {e' : Engine} (h : e'.MayAnswer x)
    (hsub : ∀ reply ∈ e'.submitScript, reply ∈ e.submitScript) : e.MayAnswer x := by
  obtain ⟨result, signature, hmem, hresult⟩ := h
  exact ⟨result, signature, hsub _ hmem, hresult⟩

theorem registerByReply_submitScript (e : Engine) (d : TaskDescriptor) (reply : RegisterReply) :
    (e.registerByReply d reply).2.submitScript = e.submitScript := by
  cases reply with
  | byItself =>
    simp only [registerByReply, keep]
    split <;> rfl
  | answer result => rfl
  | panic text => rfl

theorem register_submitScript (e : Engine) (d : TaskDescriptor) :
    (e.register d).2.submitScript = e.submitScript := by
  unfold register
  split
  · exact registerByReply_submitScript ..
  · exact registerByReply_submitScript ..

theorem submitByReply_submitScript (e : Engine) (signature : String) (args : Args)
    (reply : SubmitReply) :
    (e.submitByReply signature args reply).2.submitScript = e.submitScript := by
  cases reply <;> rfl

/-- A script is used up from its front. -/
theorem mem_submitScript_of_submit {signature : String} {args : Args} {reply : SubmitReply}
    (h : reply ∈ (e.submit signature args).2.submitScript) : reply ∈ e.submitScript := by
  unfold submit at h
  split at h
  · rwa [submitByReply_submitScript] at h
  · next first rest hscript =>
    rw [submitByReply_submitScript] at h
    exact hscript ▸ List.mem_cons_of_mem first h

/-- A failure of a submission that the engine answers itself. -/
theorem mayAnswer_of_settled {signature : String} {args : Args}
    (h : (e.submit signature args).1 = .settled (.error (.error x))) : e.MayAnswer x := by
  unfold submit at h
  split at h
  · cases h
  · next first rest hscript =>
    cases first with
    | byItself => cases h
    | panic text => cases h
    | answer result =>
      obtain ⟨y, hresult, hy⟩ := mapError_eq_error_iff.1 (Admission.settled.inj h)
      cases hy
      exact ⟨result, signature, hscript ▸ List.mem_cons_self, hresult⟩

theorem handoff_of_register {d : TaskDescriptor} (h : (e.register d).1 = .error (.error x)) :
    ∃ y, x = .handoff y := by
  have hreply : ∀ (e : Engine) reply, (e.registerByReply d reply).1 = .error (.error x) →
      ∃ y, x = .handoff y := by
    intro e reply h
    cases reply with
    | panic text => cases h
    | byItself =>
      obtain ⟨y, -, hy⟩ := mapError_eq_error_iff.1 h
      cases hy
      exact ⟨y, rfl⟩
    | answer result =>
      obtain ⟨y, -, hy⟩ := mapError_eq_error_iff.1 h
      cases hy
      exact ⟨y, rfl⟩
  unfold register at h
  split at h
  · exact hreply _ _ h
  · exact hreply _ _ h

end Engine

namespace Fleet

variable {f : Fleet} {engine : EngineId} {o : Origin} {d : TaskDescriptor} {schema : Schema}
  {args : Args} {x : TaskError}

/-- Some engine has the failure in its script. -/
def MayAnswer (f : Fleet) (x : TaskError) : Prop := ∃ e ∈ f.engines, e.MayAnswer x

theorem MayAnswer.of_setEngine {e e' : Engine} {event : Event}
    (h : ((f.setEngine engine e').log event).MayAnswer x) (he : f.engines[engine]? = some e)
    (hsub : ∀ reply ∈ e'.submitScript, reply ∈ e.submitScript) : f.MayAnswer x := by
  obtain ⟨e'', hmem, hanswer⟩ := h
  obtain hmem | rfl := List.mem_or_eq_of_mem_set hmem
  · exact ⟨e'', hmem, hanswer⟩
  · exact ⟨e, List.mem_of_getElem? he, hanswer.of_subset hsub⟩

theorem MayAnswer.of_register (h : (f.register engine o d).2.MayAnswer x) : f.MayAnswer x := by
  unfold register at h
  split at h
  · exact h
  · next e he =>
    refine h.of_setEngine he ?_
    intro reply hmem
    rwa [Engine.register_submitScript] at hmem

theorem MayAnswer.of_submit (h : (f.submit engine o d schema args).2.MayAnswer x) :
    f.MayAnswer x := by
  unfold submit at h
  split at h
  · exact h
  · next e he => exact h.of_setEngine he fun _ hmem => Engine.mem_submitScript_of_submit hmem

theorem mayAnswer_of_settled
    (h : (f.submit engine o d schema args).1 = .settled (.error (.error x))) :
    x = .handoff .noEngine ∨ f.MayAnswer x := by
  unfold submit at h
  split at h
  · cases h
    exact .inl rfl
  · next e he => exact .inr ⟨e, List.mem_of_getElem? he, Engine.mayAnswer_of_settled h⟩

theorem handoff_of_register (h : (f.register engine o d).1 = .error (.error x)) :
    ∃ y, x = .handoff y := by
  unfold register at h
  split at h
  · cases h
    exact ⟨_, rfl⟩
  · exact Engine.handoff_of_register h

end Fleet

namespace Session

variable {s s' : Session} {id : TaskId} {t : Task} {index : Nat} {x : TaskError}

theorem Move.mayAnswer (h : Move s s') (hx : s'.fleet.MayAnswer x) : s.fleet.MayAnswer x := by
  cases h with
  | handOver _ _ _ _ => exact Fleet.MayAnswer.of_register hx
  | handOverDerived _ _ _ _ _ => exact Fleet.MayAnswer.of_register hx
  | submitDerived _ _ _ _ => exact Fleet.MayAnswer.of_submit hx
  | submit _ _ _ _ => exact Fleet.MayAnswer.of_submit hx
  | body _ _ => exact hx

/-- What engines may answer comes from before the moves. -/
theorem Moves.mayAnswer (h : Moves s s') (hx : s'.fleet.MayAnswer x) : s.fleet.MayAnswer x :=
  h.keeps (I := fun u => u.fleet.MayAnswer x → s.fleet.MayAnswer x)
    (fun _ _ hmove hs hx => hs (hmove.mayAnswer hx)) id hx

/-! ## Where the failure can come from -/

/-- The failure of a descriptor without a signature. -/
def unsigned : TaskError := .definition .missingSignature

theorem fault_ne_unsigned (a : Abort) : a.fault ≠ .error unsigned := by
  cases a <;> simp [Abort.fault, unsigned]

theorem handoff_ne_unsigned (e : HandoffError) : TaskError.handoff e ≠ unsigned := by
  simp [unsigned]

section Passing

variable {specs : List Transform} {engine : EngineId} (ht : s.task? id = some t)
  (hlayer : t.declaration.layers[index]? = some (.transformation specs))
  (hrole : s.scope.role = .submitter)

theorem handoff_of_ensureDerived (p : Passage) (engine : EngineId) (param : String) (y : Passing)
    (h : (p.ensureDerived engine param y).1 = .error (.error x)) : ∃ e, x = .handoff e := by
  cases hp : y.derived.poisoned with
  | true =>
    rw [Passage.ensureDerived, if_pos hp] at h
    cases h
    exact ⟨_, rfl⟩
  | false =>
    cases hd : y.derived.descriptors.get? param with
    | some d =>
      rw [Passage.ensureDerived, if_neg (by simp [hp]), hd] at h
      cases h
    | none =>
      rw [Passage.ensureDerived_of_new _ _ hp hd] at h
      simp only at h
      cases hanswer : (y.fleet.register engine (p.origin param)
          (Derived.descriptor p.info param)).1 with
      | ok u =>
        rw [hanswer] at h
        cases h
      | error fault =>
        rw [hanswer] at h
        cases h
        exact Fleet.handoff_of_register hanswer

include ht hlayer hrole

theorem submitDerived_unsigned {u : Transform} {v : Value} {y : Passing}
    (h : ((s.passage id t index).submitDerived u v y).1 = .error (.error unsigned)) :
    y.fleet.MayAnswer unsigned := by
  cases he : s.scope.engine with
  | none =>
    have he' : (s.passage id t index).scope.engine = none := he
    simp only [Passage.submitDerived, he'] at h
    cases h
  | some engine =>
    have he' : (s.passage id t index).scope.engine = some engine := he
    have hmoves := (ensureDerived_asides ht hlayer hrole he u.param y).1.moves
    have hhandoff :=
      handoff_of_ensureDerived (x := unsigned) (s.passage id t index) engine u.param y
    simp only [Passage.submitDerived, he'] at h
    generalize (s.passage id t index).ensureDerived engine u.param y = answer
      at h hmoves hhandoff
    obtain ⟨fault | d, z⟩ := answer
    · cases h
      obtain ⟨e, he⟩ := hhandoff rfl
      exact absurd he.symm (handoff_ne_unsigned e)
    · have hback : z.fleet.MayAnswer unsigned → y.fleet.MayAnswer unsigned := hmoves.mayAnswer
      simp only at h
      split at h
      · next result hsettled =>
        subst h
        obtain hnone | hanswer := Fleet.mayAnswer_of_settled hsettled
        · exact absurd hnone.symm (handoff_ne_unsigned _)
        · exact hback hanswer
      · obtain ⟨a, -, ha⟩ := mapError_eq_error_iff.1 h
        exact absurd ha (fault_ne_unsigned a)

theorem transform_unsigned {u : Transform} {v : Value} {y : Passing}
    (h : ((s.passage id t index).transform u v y).1 = .error (.error unsigned)) :
    y.fleet.MayAnswer unsigned := by
  unfold Passage.transform at h
  split at h
  · obtain ⟨a, -, ha⟩ := mapError_eq_error_iff.1 h
    exact absurd ha (fault_ne_unsigned a)
  · exact submitDerived_unsigned ht hlayer hrole h

theorem substitute_unsigned {us : List Transform} {y : Passing}
    (h : ((s.passage id t index).substitute us y).1 = .error (.error unsigned)) :
    y.fleet.MayAnswer unsigned := by
  induction us generalizing y with
  | nil => cases h
  | cons u us ih =>
    rw [Passage.substitute] at h
    split at h
    · cases h
    · next site v _ =>
      have hmoves := (transform_asides ht hlayer hrole u v y).moves
      have hunsigned := transform_unsigned ht hlayer hrole (u := u) (v := v) (y := y)
      generalize (s.passage id t index).transform u v y = answer at h hmoves hunsigned
      obtain ⟨fault | w, z⟩ := answer
      · cases h
        exact hunsigned rfl
      · have hback : z.fleet.MayAnswer unsigned → y.fleet.MayAnswer unsigned := hmoves.mayAnswer
        exact hback (ih (y := { z with args := z.args.replace site u.param w }) h)

omit hrole in
theorem beforeCall_unsigned {y : Passing}
    (h : ((s.passage id t index).beforeCall specs y).1 = .error (.error unsigned)) :
    y.fleet.MayAnswer unsigned := by
  by_cases hrole : s.scope.role = .submitter
  · rw [Passage.beforeCall_of_submitter hrole] at h
    dsimp only at h
    generalize (if y.args.transforms.isEmpty then specs else y.args.transforms) = inForce at h
    split at h
    · cases h
    · exact substitute_unsigned ht hlayer hrole
        (y := { y with args := { y.args with transforms := [] } }) h
  · rw [Passage.beforeCall_of_not_submitter hrole] at h
    cases h

end Passing

theorem beforeLayer_unsigned {layer : Layer} (ht : s.task? id = some t)
    (hlayer : t.declaration.layers[index]? = some layer) (hl : layer.isBuiltIn = true) (args : Args)
    (h : (s.beforeLayer id t.declaration.info s.scope index layer args).1 =
      .error (.error unsigned)) : s.fleet.MayAnswer unsigned := by
  cases layer with
  | custom c => cases hl
  | transformation specs =>
    simp only [beforeLayer, ht] at h
    exact beforeCall_unsigned ht hlayer (y := ⟨args, t.derivedAt index, s.fleet⟩) h
  | task _ => cases h
  | constraint _ => cases h
  | mpi _ => cases h

/-! ## Calls -/

section Calls

variable {callTask : String → Args → Session → Except Fault Value × Session}

/-- A body reports failures of its own only, whatever the calls in it ended with. -/
theorem run_ne_unsigned (p : Program) (s : Session) :
    (p.run callTask s).1 ≠ .error (.error unsigned) := by
  induction p generalizing s with
  | done r =>
    intro h
    obtain ⟨a, -, ha⟩ := mapError_eq_error_iff.1 h
    exact absurd ha (fault_ne_unsigned a)
  | call task args next ih =>
    rw [Program.run]
    generalize callTask task args s = answer
    obtain ⟨fault | v, s'⟩ := answer
    · cases fault with
      | error e => exact ih _ s'
      | panic text => simp
      | tooDeep => simp
    · exact ih _ s'

theorem land_unsigned (d : Declaration) (descriptor : Option TaskDescriptor) (args : Args)
    (h : (land id d s.scope descriptor args s).1 = .ended (.error (.error unsigned))) :
    s.fleet.MayAnswer unsigned := by
  unfold land at h
  split at h
  · split at h
    · cases h
    · dsimp only at h
      split at h
      · next result hsettled =>
        cases h
        obtain hnone | hanswer := Fleet.mayAnswer_of_settled hsettled
        · exact absurd hnone.symm (handoff_ne_unsigned _)
        · exact hanswer
      · cases h
  · cases h

theorem descend_unsigned {d : Declaration} {descriptor : Option TaskDescriptor} {scope : Scope}
    {layers : List Layer} (hlayers : layers <+: d.layers.drop index)
    (hl : ∀ l ∈ d.layers, l.isBuiltIn = true) (hscope : s.scope = scope)
    (hcarries : s.Carries id d descriptor) (args : Args)
    (h : (descend id d.info scope index layers args s).1 = .error (.error unsigned)) :
    s.fleet.MayAnswer unsigned := by
  induction layers generalizing index s args with
  | nil => cases h
  | cons layer rest ih =>
    obtain ⟨hlayer, hrest⟩ := cons_prefix_drop hlayers
    obtain ⟨t, ht, rfl, -⟩ := hcarries.task
    have hmoves := (beforeLayer_asides ht hlayer args).moves
    have hunsigned := beforeLayer_unsigned ht hlayer (hl _ (List.mem_of_getElem? hlayer)) args
    rw [hscope] at hmoves hunsigned
    rw [descend] at h
    generalize s.beforeLayer id t.declaration.info scope index layer args = answer
      at h hmoves hunsigned
    obtain ⟨fault | u, args', s'⟩ := answer
    · cases h
      exact hunsigned rfl
    · have hext := hmoves.extends
      exact hmoves.mayAnswer
        (ih hrest (hext.scope.trans hscope) (hcarries.extends hext) _ h)

theorem ensureRegistered_ne_unsigned (hl : ∀ l ∈ t.declaration.layers, l.isBuiltIn = true)
    (hbase : t.declaration.layers.countP Layer.isTask = 1) (ht : s.task? id = some t) :
    (s.ensureRegistered id t s.scope).1 ≠ .error (.error unsigned) := by
  obtain ⟨fault, h, hfault⟩ | ⟨r, -, h⟩ | ⟨engine, r, -, -, -, h⟩ :=
    ensureRegistered_cases ht s.scope
  · rw [h]
    obtain rfl | rfl | ⟨e, hd, rfl⟩ := hfault
    · exact fun h => by cases h
    · exact fun h => by cases h
    · obtain ⟨c, rfl⟩ := Declaration.conflict_of_describe hl hbase hd
      exact fun h => by cases h
  · rw [h]
    exact fun h => by cases h
  · rw [h]
    intro h
    cases hanswer : (s.fleet.register engine (.task id) r.descriptor).1 with
    | ok u =>
      rw [hanswer] at h
      cases h
    | error fault =>
      rw [hanswer] at h
      cases h
      obtain ⟨e, he⟩ := Fleet.handoff_of_register hanswer
      exact absurd he.symm (handoff_ne_unsigned e)

theorem present_ne_unsigned (hl : ∀ l ∈ t.declaration.layers, l.isBuiltIn = true)
    (hbase : t.declaration.layers.countP Layer.isTask = 1) (ht : s.task? id = some t) :
    (s.present id t).1 ≠ .error (.error unsigned) := by
  have hne := ensureRegistered_ne_unsigned hl hbase ht
  unfold present
  split
  · generalize s.ensureRegistered id t s.scope = answer at hne ⊢
    obtain ⟨fault | x, s'⟩ := answer
    · intro h
      cases h
      exact hne rfl
    · exact fun h => by cases h
  · exact fun h => by cases h

theorem approach_unsigned (hl : ∀ l ∈ t.declaration.layers, l.isBuiltIn = true)
    (hbase : t.declaration.layers.countP Layer.isTask = 1) (ht : s.task? id = some t) (args : Args)
    (h : (s.approach id t args).1 = .error (.error unsigned)) : s.fleet.MayAnswer unsigned := by
  obtain ⟨hmoves, hcarries⟩ := s.present_moves ht
  have hne := present_ne_unsigned hl hbase ht
  unfold approach at h
  generalize s.present id t = answer at h hmoves hcarries hne
  obtain ⟨fault | x, s'⟩ := answer
  · cases h
    exact absurd rfl hne
  · have hlayers : passed s.scope.role t.declaration.layers <+: t.declaration.layers.drop 0 :=
      passed_prefix ..
    have hunsigned := descend_unsigned hlayers hl hmoves.extends.scope (hcarries x rfl) args
    dsimp only at h
    generalize descend id t.declaration.info s.scope 0 _ args s' = passing at h hunsigned
    obtain ⟨fault | args', s''⟩ := passing
    · cases h
      exact hmoves.mayAnswer (hunsigned rfl)
    · cases h

theorem callInScope_unsigned (hl : ∀ l ∈ t.declaration.layers, l.isBuiltIn = true)
    (hbase : t.declaration.layers.countP Layer.isTask = 1) (ht : s.task? id = some t) {args : Args}
    (h : (callInScope callTask id t s.scope args s).1 = .error (.error unsigned)) :
    s.fleet.MayAnswer unsigned := by
  rw [callInScope_eq_enter] at h
  obtain ⟨hmoves, -⟩ := s.approach_moves ht args
  have happroach := approach_unsigned hl hbase ht args
  unfold enter at h
  generalize s.approach id t args = answer at h hmoves happroach
  obtain ⟨fault | ⟨x, args'⟩, s'⟩ := answer
  · cases h
    exact happroach rfl
  · have hland : (land id t.declaration s'.scope x args' s').1 =
        .ended (.error (.error unsigned)) → s'.fleet.MayAnswer unsigned := fun h =>
      land_unsigned _ _ _ h
    rw [hmoves.extends.scope] at hland
    dsimp only at h
    generalize land id t.declaration s.scope x args' s' = landed at h hland
    obtain ⟨result | program, s''⟩ := landed
    · cases h
      exact hmoves.mayAnswer (hland rfl)
    · exact absurd h (run_ne_unsigned _ _)

end Calls
end Session

namespace Declaration

/-- What a declaration can hand over: its own descriptor, and those of its derived tasks. -/
inductive Makes (d : Declaration) : TaskDescriptor → Prop
  | own {r : Registered} : describe d.info d.layers = .ok r → Makes d r.descriptor
  | derived (param : String) : Makes d (Derived.descriptor d.info param)

theorem Makes.keepsContract {d : Declaration} {x : TaskDescriptor} (h : d.Makes x)
    (hl : ∀ l ∈ d.layers, l.Made) (ht : d.layers.countP Layer.isTask = 1) : x.KeepsContract := by
  cases h with
  | own hr => exact keepsContract_of_describe hl ht hr
  | derived param => exact TaskDescriptor.validate_eq_ok_iff.1 (Derived.validate_descriptor _ _)

/-- **What a declaration hands over keeps the contract.** The last part is about every call of the
declaration, in any session and under any other calls. -/
theorem makes_keepsContract {info : TaskInfo} {layers : List Layer} {body : Body} {d : Declaration}
    (hd : build info layers body = .ok d) (hl : ∀ l ∈ layers, l.Made) :
    (∀ x, d.Makes x → x.validate = .ok () ∧ x.KeepsContract ∧
      ∀ (l : Ledger) (e : HandoffError), (l.register x).1 = .error e ↔
        e = .rejected x.canonicalSignature "ya registrado con otro contenido" ∧
          ∃ held, l.descriptor? x.canonicalSignature = some held ∧ held ≠ x) ∧
    (∀ slot, configureAll d.info d.layers {} = .ok slot → slot.builder.isSome = true ∧
      ∃ name ∈ d.layerNames, slot.createdBy = some name ∧ name ≠ "?") ∧
    (∀ e, describe d.info d.layers = .error e → ∃ c, e = .conflict c) ∧
    ∀ (s : Session) id t, s.task? id = some t → t.declaration = d → ∀ depth args,
      (Session.callWithin depth id args s).1 = .error (.error (.definition .missingSignature)) →
        ∃ e ∈ s.fleet.engines, e.MayAnswer (.definition .missingSignature) ∧ ¬ e.IsLocal := by
  obtain ⟨rfl, ht⟩ := build_eq_ok hd
  have hbuiltIn : ∀ l ∈ layers, l.isBuiltIn = true := fun l hmem => (hl l hmem).isBuiltIn
  refine ⟨?_, ?_, fun e he => conflict_of_describe hbuiltIn ht he, ?_⟩
  · intro x hx
    have hcontract := hx.keepsContract hl ht
    exact ⟨TaskDescriptor.validate_eq_ok_iff.2 hcontract, hcontract,
      Ledger.register_eq_error_iff hcontract⟩
  · intro slot hslot
    obtain ⟨l, hmem, hname, hsome⟩ := createdBy_of_configureAll hbuiltIn ht hslot
    exact ⟨hsome, l.name, List.mem_map_of_mem hmem, hname, (hl l hmem).name_ne_questionMark⟩
  · intro s id t hid hdecl depth args h
    cases depth with
    | zero => cases h
    | succ depth =>
      simp only [Session.callWithin, hid] at h
      obtain ⟨e, hmem, hanswer⟩ := Session.callInScope_unsigned (t := t)
        (by rwa [hdecl]) (by rwa [hdecl]) hid h
      exact ⟨e, hmem, hanswer, fun hlocal => Engine.not_mayAnswer_of_isLocal hlocal hanswer⟩

/-- A parallel run with resources, whose name another descriptor has taken. -/
theorem makes_keepsContract_taken :
    let info : TaskInfo := ⟨"", "", { params := [{ name := "grid" }] }⟩
    let options : Options := Dict.ofList [("computingUnits", .int 2)]
    ∃ c d r, ResourceConstraint.ofOptions options = .ok c ∧
      build info [.constraint c, .transformation [], .mpi { runner := "mpirun" }, .task {}]
        (fun _ => .done (.ok .null)) = .ok d ∧
      describe d.info d.layers = .ok r ∧ r.descriptor.validate = .ok () ∧
      (({ registrations := [{ r.descriptor with io := none }] } : Ledger).register r.descriptor).1 =
        .error (.rejected "." "ya registrado con otro contenido") := by
  intro info options
  obtain ⟨c, hc⟩ : ∃ c, ResourceConstraint.ofOptions options = .ok c := ⟨_, rfl⟩
  let layers : List Layer := [.constraint c, .transformation [], .mpi { runner := "mpirun" },
    .task {}]
  have hd : build info layers (fun _ => .done (.ok .null)) = .ok ⟨info, layers, _⟩ := rfl
  have hl : ∀ l ∈ layers, l.Made := by
    intro l hmem
    simp only [layers, List.mem_cons, List.not_mem_nil, or_false] at hmem
    obtain rfl | rfl | rfl | rfl := hmem
    · exact .constraint hc
    · exact .transformation _
    · exact .mpi _
    · exact .task _
  obtain ⟨hmakes, -⟩ := makes_keepsContract hd hl
  obtain ⟨r, hr⟩ : ∃ r, describe info layers = .ok r := ⟨_, rfl⟩
  obtain ⟨hvalid, -, hledger⟩ := hmakes r.descriptor (.own hr)
  have hsignature : r.descriptor.canonicalSignature = "." := by
    cases hr
    rfl
  have hio : r.descriptor.io = some false := by
    cases hr
    rfl
  have hne : { r.descriptor with io := none } ≠ r.descriptor := by
    intro heq
    cases (congrArg TaskDescriptor.io heq).trans hio
  refine ⟨c, _, r, hc, hd, hr, hvalid, (hledger _ _).2 ⟨by rw [hsignature], _, ?_, hne⟩⟩
  simp [Ledger.descriptor?]

end Declaration
end TaskStack
