import TaskStack.Proofs.Descriptor.Stacking
import TaskStack.Proofs.Engine.Local
import TaskStack.Session.Substitution

/-!
# Built-in layers keep the contract

An engine takes a descriptor only if it keeps a contract, and what the layers write is fixed when
they are made, long before anybody checks. Two things bring both together. A resource layer comes
out of options, so its keys are recognized. And the three fields of an implementation are written
together, by a layer for parallel runs or by the base layer at the end, so there are as many
arguments as the type asks for.

* `TaskDescriptor.validate_eq_ok_iff`: the check is the contract.
* `Declaration.keepsContract_of_describe`: what a stack of built-in layers makes keeps it.
* `Ledger.register_eq_error_iff`: a local engine refuses such a descriptor for one reason only.
-/

namespace TaskStack

/-! ## The contract -/

/-- What an engine asks of a descriptor. -/
structure TaskDescriptor.KeepsContract (d : TaskDescriptor) : Prop where
  signature : Text.allBlank d.canonicalSignature = false
  implementation : ∃ t args, d.implementationType = some t ∧ d.implementationArgs = some args ∧
    args.length = t.argumentCount
  implementationSignature : d.implementationSignature.isSome = true
  constraints : ∀ c, d.constraints = some c → ∀ key ∈ c.keys, Resource.isRecognized key = true

namespace TaskDescriptor

variable {d : TaskDescriptor}

theorem implementationBreach?_eq_none_iff {t : Option ImplementationType}
    {args : Option (List String)} : breach?.implementationBreach? t args = none ↔
      ∃ u as, t = some u ∧ args = some as ∧ as.length = u.argumentCount := by
  cases t <;> cases args <;> simp [breach?.implementationBreach?]

theorem recognized_iff (c : Option (Dict String)) :
    (c.getD ∅).keys.find? (!Resource.isRecognized ·) = none ↔
      ∀ x, c = some x → ∀ key ∈ x.keys, Resource.isRecognized key = true := by
  cases c with
  | none => simp [Dict.keys]
  | some x => simp

/-- There is no breach exactly when the contract is kept. -/
theorem breach?_eq_none_iff : d.breach? = none ↔ d.KeepsContract := by
  unfold breach?
  constructor
  · intro h
    split at h
    · cases h
    · next hsignature =>
      split at h
      · cases h
      · next himplementation =>
        split at h
        · cases h
        · next hsome =>
          split at h
          · cases h
          · next hconstraints =>
            exact ⟨by simpa using hsignature, implementationBreach?_eq_none_iff.1 himplementation,
              by simpa [Option.isSome_iff_ne_none] using hsome, (recognized_iff _).1 hconstraints⟩
  · rintro ⟨hsignature, himplementation, hsome, hconstraints⟩
    rw [if_neg (by simp [hsignature]), implementationBreach?_eq_none_iff.2 himplementation]
    simp only [Option.isNone_eq_false_iff.2 hsome, (recognized_iff _).2 hconstraints]
    rfl

/-- **The check lets through exactly what keeps the contract.** -/
theorem validate_eq_ok_iff : d.validate = .ok () ↔ d.KeepsContract := by
  rw [← breach?_eq_none_iff, validate]
  cases d.breach? <;> simp

end TaskDescriptor

/-- A ledger refuses a descriptor that keeps the contract only for another one that it holds. -/
theorem Ledger.register_eq_error_iff {d : TaskDescriptor} (hd : d.KeepsContract) (l : Ledger)
    (e : HandoffError) : (l.register d).1 = .error e ↔
      e = .rejected d.canonicalSignature "ya registrado con otro contenido" ∧
        ∃ held, l.descriptor? d.canonicalSignature = some held ∧ held ≠ d := by
  simp only [register, TaskDescriptor.validate_eq_ok_iff.2 hd]
  cases l.descriptor? d.canonicalSignature with
  | none => simp
  | some held => by_cases h : held = d <;> simp [h, eq_comm (a := e)]

/-! ## Layers as they are made -/

theorem Resource.isRecognized_of_normalize? {key resource : String}
    (h : normalize? key = some resource) : isRecognized resource = true := by
  rw [isRecognized, List.contains_iff_mem]
  exact List.mem_of_find?_eq_some h

/-- The names under which resources are gathered are recognized. -/
theorem ResourceConstraint.isRecognized_of_gather {options : List (String × Value)}
    {gathered c : Dict String} (h : gather options gathered = .ok c)
    (hg : ∀ key, gathered.contains key = true → Resource.isRecognized key = true) :
    ∀ key, c.contains key = true → Resource.isRecognized key = true := by
  induction options generalizing gathered with
  | nil =>
    cases h
    exact hg
  | cons option rest ih =>
    rw [gather] at h
    split at h
    · cases h
    · next resource hresource =>
      split at h
      · cases h
      · next text _ =>
        split at h
        · cases h
        · refine ih h ?_
          intro key hkey
          by_cases heq : resource = key
          · exact heq ▸ Resource.isRecognized_of_normalize? hresource
          · refine hg key ?_
            rwa [Dict.contains, Dict.get?_insert_of_ne _ _ heq] at hkey

/-- Layers as they can be made. Resources come out of options only. The other layers can be made
field by field as well, and then hold whatever they are given. -/
inductive Layer.Made : Layer → Prop
  | task (t : PlainTask) : Made (.task t)
  | constraint {options : Options} {c : ResourceConstraint} :
      ResourceConstraint.ofOptions options = .ok c → Made (.constraint c)
  | mpi (m : MpiParallel) : Made (.mpi m)
  | transformation (specs : List Transform) : Made (.transformation specs)

namespace Layer

theorem Made.isBuiltIn {l : Layer} (h : l.Made) : l.isBuiltIn = true := by
  cases h <;> rfl

/-- No layer has the name that stands for a layer nobody knows. -/
theorem Made.name_ne_questionMark {l : Layer} (h : l.Made) : l.name ≠ "?" := by
  cases h <;> simp [name, PlainTask.name, ResourceConstraint.name, MpiParallel.name,
    transformationName]

theorem isRecognized_of_made {c : ResourceConstraint} (h : (constraint c).Made) :
    ∀ key ∈ c.constraints.keys, Resource.isRecognized key = true := by
  cases h with
  | @constraint options c hoptions =>
    intro key hkey
    unfold ResourceConstraint.ofOptions at hoptions
    split at hoptions
    · cases hoptions
    · cases hgather : ResourceConstraint.gather options.entries ∅ with
      | error e =>
        rw [hgather] at hoptions
        cases hoptions
      | ok gathered =>
        rw [hgather] at hoptions
        cases hoptions
        obtain ⟨⟨k, v⟩, hmem, rfl⟩ := List.mem_map.1 hkey
        refine ResourceConstraint.isRecognized_of_gather hgather (fun k h => by cases h) k ?_
        rw [Dict.contains, Dict.get?_eq_some_iff.2 hmem]
        rfl

end Layer

/-! ## What a stack writes -/

namespace DescriptorBuilder

/-- A whole implementation, with as many arguments as its type asks for. -/
def Implemented (b : DescriptorBuilder) : Prop :=
  ∃ t args signature, b.implementationType = some t ∧ b.implementationArgs = some args ∧
    b.implementationSignature = some signature ∧ args.length = t.argumentCount

/-- What layers have written so far keeps the contract: the implementation is whole once it has a
type, and the constraints are recognized. -/
structure OnContract (b : DescriptorBuilder) : Prop where
  implementation : b.Implemented ∨ b.implementationType = none
  constraints : ∀ c, b.constraints = some c → ∀ key ∈ c.keys, Resource.isRecognized key = true

variable {b : DescriptorBuilder}

theorem OnContract.setAll_writes (h : b.OnContract) {l : Layer} (hl : l.Made) (info : TaskInfo) :
    (b.setAll (l.writes info)).OnContract := by
  cases l with
  | task t => exact ⟨h.implementation, h.constraints⟩
  | constraint c =>
    refine ⟨h.implementation, ?_⟩
    intro x hx
    cases hx
    exact Layer.isRecognized_of_made hl
  | mpi m =>
    refine ⟨.inl ⟨_, _, _, rfl, rfl, rfl, ?_⟩, h.constraints⟩
    -- a run of a program of its own and a run of the function take ten arguments alike
    have hcount : m.implementationType.argumentCount = 10 := by
      unfold MpiParallel.implementationType
      split <;> rfl
    rw [hcount]
    rfl
  | transformation specs => exact h
  | custom c => cases hl

theorem OnContract.setAll_stackWrites (h : b.OnContract) {layers : List Layer}
    (hl : ∀ l ∈ layers, l.Made) (info : TaskInfo) :
    (b.setAll (Declaration.stackWrites info layers)).OnContract := by
  induction layers generalizing b with
  | nil => exact h
  | cons l rest ih =>
    obtain ⟨hl, hrest⟩ := List.forall_mem_cons.1 hl
    rw [Declaration.stackWrites, List.flatMap_cons, setAll_append]
    exact ih (h.setAll_writes hl info) hrest

/-- The base layer completes an implementation that no other layer chose. -/
theorem OnContract.setAll_completion (h : b.OnContract) (info : TaskInfo) :
    (b.setAll (PlainTask.completion info b)).Implemented ∧
      (b.setAll (PlainTask.completion info b)).OnContract := by
  unfold PlainTask.completion
  split
  · next hsome =>
    obtain himplemented | hnone := h.implementation
    · exact ⟨himplemented, h⟩
    · rw [hnone] at hsome
      cases hsome
  · have himplemented : (b.setAll [.implementationType .plain,
        .implementationSignature info.qualifiedName,
        .implementationArgs [info.module, info.name]]).Implemented :=
      ⟨.plain, [info.module, info.name], _, rfl, rfl, rfl, rfl⟩
    exact ⟨himplemented, .inl himplemented, h.constraints⟩

end DescriptorBuilder

namespace Declaration

variable {info : TaskInfo} {layers : List Layer} {r : Registered}

/-- The name of a task is never blank: its parts are joined by a dot. -/
theorem allBlank_qualifiedName (info : TaskInfo) : Text.allBlank info.qualifiedName = false :=
  Text.allBlank_eq_false (c := '.') (by simp [TaskInfo.qualifiedName]) (by decide)

/-- A stack that makes a descriptor has no two layers of a kind that writes. -/
theorem countP_le_of_describe (hl : ∀ l ∈ layers, l.isBuiltIn = true)
    (h : describe info layers = .ok r) :
    layers.countP Layer.isConstraint ≤ 1 ∧ layers.countP Layer.isMpi ≤ 1 := by
  by_contra hcount
  obtain ⟨c, hc⟩ := describe_of_not_countP_le info hl hcount
  cases hc.symm.trans h

/-- **What a stack of built-in layers makes keeps the contract.** -/
theorem keepsContract_of_describe (hl : ∀ l ∈ layers, l.Made)
    (ht : layers.countP Layer.isTask = 1) (h : describe info layers = .ok r) :
    r.descriptor.KeepsContract := by
  have hbuiltIn : ∀ l ∈ layers, l.isBuiltIn = true := fun l hmem => (hl l hmem).isBuiltIn
  obtain ⟨hc, hm⟩ := countP_le_of_describe hbuiltIn h
  obtain ⟨r', hr', hsealed, -⟩ := describe_of_countP_le info hbuiltIn ht hc hm
  cases hr'.symm.trans h
  have hempty : ({} : DescriptorBuilder).OnContract := ⟨.inr rfl, fun c hc => by cases hc⟩
  obtain ⟨⟨t, args, signature, htype, hargs, hsome, hlength⟩, hcontract⟩ :=
    (hempty.setAll_stackWrites hl info).setAll_completion info
  have hsignature := canonicalSignature_of_describe info hbuiltIn ht hc hm h
  unfold DescriptorBuilder.sealed at hsealed
  split at hsealed
  · cases hsealed
  · rw [← Except.ok.inj hsealed] at hsignature ⊢
    exact {
      signature := by
        rw [hsignature]
        exact allBlank_qualifiedName info
      implementation := ⟨t, args, htype, hargs, hlength⟩
      implementationSignature := Option.isSome_iff_exists.2 ⟨signature, hsome⟩
      constraints := hcontract.constraints }

/-- A stack that can be configured has a layer that made the descriptor. -/
theorem createdBy_of_configureAll (hl : ∀ l ∈ layers, l.isBuiltIn = true)
    (ht : layers.countP Layer.isTask = 1) {slot : DescriptorSlot}
    (h : configureAll info layers {} = .ok slot) :
    ∃ l ∈ layers, slot.createdBy = some l.name ∧ slot.builder.isSome = true := by
  have htakes : ({} : DescriptorBuilder).Takes (stackWrites info layers) := by
    by_contra hnot
    obtain ⟨c, hc⟩ := configureAll_of_not_takes info hl (fun _ : none = none => rfl) hnot
    cases hc.symm.trans h
  have hconf := configureAll_of_takes info hl (fun _ : none = none => rfl) htakes
  rw [Option.none_or] at hconf
  obtain ⟨name, hname⟩ := Option.isSome_iff_exists.1 (isSome_outermostWriter ht)
  cases hconf.symm.trans h
  obtain ⟨l, hfind, rfl⟩ := Option.map_eq_some_iff.1 hname
  refine ⟨l, List.mem_of_find?_eq_some hfind, hname, ?_⟩
  rw [hname]
  rfl

/-- A stack of built-in layers fails by a conflict if at all. -/
theorem conflict_of_describe (hl : ∀ l ∈ layers, l.isBuiltIn = true)
    (ht : layers.countP Layer.isTask = 1) {e : TaskError} (h : describe info layers = .error e) :
    ∃ c, e = .conflict c := by
  by_cases hcount : layers.countP Layer.isConstraint ≤ 1 ∧ layers.countP Layer.isMpi ≤ 1
  · obtain ⟨r, hr, -⟩ := describe_of_countP_le info hl ht hcount.1 hcount.2
    cases hr.symm.trans h
  · obtain ⟨c, hc⟩ := describe_of_not_countP_le info hl hcount
    exact ⟨c, Except.error.inj (h.symm.trans hc)⟩

end Declaration
end TaskStack
