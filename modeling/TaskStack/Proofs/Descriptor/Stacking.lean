import TaskStack.Proofs.Descriptor.WriteOnce
import TaskStack.Task.Declaration

/-!
# The order of layers does not change the descriptor

Each of the four built-in layers writes its own fields while a task is configured. So configuring a
stack is one list of writes, and it is taken exactly when no two layers of the stack are of a kind
that writes. The base layer finishes the descriptor by looking at one field of the fold, which is
the same for all orders.

**Theorem (`describe_stackingOrder`).** Stacks that are permutations of each other give equal
descriptors or both end in a conflict, and they give one exactly when no more than one layer asks
for resources and no more than one for a parallel run. The layer that made the descriptor is the
outermost one that is no transformation.

* `configureAll_of_takes`: what the layers of a stack write together.
* `takes_stackWrites_iff`: when those writes are taken.
* `describe_of_countP_le`, `describe_of_not_countP_le`: the descriptor of a stack.
-/

namespace TaskStack

open DescriptorBuilder

namespace Layer

def isConstraint : Layer → Bool
  | .constraint _ => true
  | _ => false

def isMpi : Layer → Bool
  | .mpi _ => true
  | _ => false

def isTransformation : Layer → Bool
  | .transformation _ => true
  | _ => false

/-- Tells the four kinds of layers of this library from those from outside. -/
def isBuiltIn : Layer → Bool
  | .custom _ => false
  | _ => true

/-- What a built-in layer writes while a task is configured. -/
def writes (info : TaskInfo) : Layer → List FieldWrite
  | .task t => t.writes info
  | .constraint c => [.constraints c.constraints]
  | .mpi m => m.writes
  | _ => []

/-- Which built-in layers write a field while a task is configured. -/
def writesField : DescriptorField → Layer → Bool
  | .canonicalSignature | .io => isTask
  | .constraints => isConstraint
  | .implementationType | .implementationSignature | .implementationArgs => isMpi

theorem configure_of_isBuiltIn {l : Layer} (hl : l.isBuiltIn = true) (info : TaskInfo)
    (slot : DescriptorSlot) :
    l.configure info slot = conflicting (slot.configure l.name (l.writes info)) := by
  cases l with
  | custom c => cases hl
  | task t => rfl
  | constraint c => rfl
  | mpi m => rfl
  | transformation specs => rfl

theorem isEmpty_writes {l : Layer} (hl : l.isBuiltIn = true) (info : TaskInfo) :
    (l.writes info).isEmpty = l.isTransformation := by
  cases l with
  | custom c => cases hl
  | task t => rfl
  | constraint c => rfl
  | mpi m => rfl
  | transformation specs => rfl

theorem count_writes {l : Layer} (hl : l.isBuiltIn = true) (info : TaskInfo)
    (f : DescriptorField) :
    ((l.writes info).map FieldWrite.field).count f = if l.writesField f then 1 else 0 := by
  cases l with
  | custom c => cases hl
  | task t => cases f <;> rfl
  | constraint c => cases f <;> rfl
  | mpi m => cases f <;> rfl
  | transformation specs => cases f <;> rfl

theorem complete_of_not_isTask {l : Layer} (hl : l.isBuiltIn = true) (ht : l.isTask = false)
    (info : TaskInfo) (b : DescriptorBuilder) : l.complete info b = (.ok (), b) := by
  cases l with
  | custom c => cases hl
  | task t => cases ht
  | constraint c => rfl
  | mpi m => rfl
  | transformation specs => rfl

theorem complete_of_isTask {l : Layer} (hl : l.isBuiltIn = true) (ht : l.isTask = true)
    (info : TaskInfo) (b : DescriptorBuilder) :
    l.complete info b = conflicting (b.writeAll l.name (PlainTask.completion info b)) := by
  cases l with
  | custom c => cases hl
  | task t => rfl
  | constraint c => cases ht
  | mpi m => cases ht
  | transformation specs => cases ht

end Layer

namespace Declaration

variable (info : TaskInfo) {layers : List Layer}

/-- An accepted declaration is what was declared, and has one base layer. -/
theorem build_eq_ok {info : TaskInfo} {body : Body} {d : Declaration}
    (h : build info layers body = .ok d) :
    d = ⟨info, layers, body⟩ ∧ layers.countP Layer.isTask = 1 := by
  unfold build at h
  split at h
  · cases h
  · next hcount =>
    cases hvalid : validateLayers info layers with
    | error e =>
      rw [hvalid] at h
      cases h
    | ok u =>
      rw [hvalid] at h
      cases h
      exact ⟨rfl, hcount⟩
  · cases h

theorem countP_of_build {info : TaskInfo} {body : Body} {d : Declaration}
    (h : build info layers body = .ok d) : layers.countP Layer.isTask = 1 := (build_eq_ok h).2

/-! ## Configuring -/

/-- What the layers of a stack write together, the outermost first. -/
def stackWrites (layers : List Layer) : List FieldWrite := layers.flatMap (Layer.writes info)

/-- The name of the outermost layer that is no transformation. -/
def outermostWriter (layers : List Layer) : Option String :=
  (layers.find? (!·.isTransformation)).map Layer.name

/-- The slot that a layer leaves when its writes are taken. -/
theorem configure_of_takes {l : Layer} (hl : l.isBuiltIn = true) {creator : Option String}
    {b : DescriptorBuilder} (hb : creator = none → b = {}) (h : b.Takes (l.writes info)) :
    l.configure info (.made creator b) =
      (.ok (), .made (creator.or (if l.isTransformation then none else some l.name))
        (b.setAll (l.writes info))) := by
  rw [Layer.configure_of_isBuiltIn hl, DescriptorSlot.configure_of_takes _ hb h,
    Layer.isEmpty_writes hl]
  rfl

/-- As long as no layer has created the slot, nothing is written. -/
theorem setAll_writes_eq_empty {l : Layer} (hl : l.isBuiltIn = true) {creator : Option String}
    {b : DescriptorBuilder} (hb : creator = none → b = {})
    (hc : creator.or (if l.isTransformation then none else some l.name) = none) :
    b.setAll (l.writes info) = {} := by
  obtain ⟨hcreator, hname⟩ := Option.or_eq_none_iff.1 hc
  have hnil : l.writes info = [] := by
    rw [← List.isEmpty_iff, Layer.isEmpty_writes hl]
    by_contra h
    simp [h] at hname
  rw [hnil, setAll_nil, hb hcreator]

/-- **Configuring a stack is one list of writes.** -/
theorem configureAll_of_takes (hl : ∀ l ∈ layers, l.isBuiltIn = true) {creator : Option String}
    {b : DescriptorBuilder} (hb : creator = none → b = {})
    (h : b.Takes (stackWrites info layers)) :
    configureAll info layers (.made creator b) =
      .ok (.made (creator.or (outermostWriter layers)) (b.setAll (stackWrites info layers))) := by
  induction layers generalizing creator b with
  | nil => simp [configureAll, outermostWriter, stackWrites]
  | cons l rest ih =>
    obtain ⟨hl, hrest⟩ := List.forall_mem_cons.1 hl
    rw [stackWrites, List.flatMap_cons] at h
    obtain ⟨hw, hws⟩ := (takes_append_iff _ _ _).1 h
    rw [configureAll, configure_of_takes info hl hb hw]
    show configureAll info rest _ = _
    rw [ih hrest (setAll_writes_eq_empty info hl hb) hws]
    simp only [stackWrites, List.flatMap_cons, setAll_append, outermostWriter, List.find?_cons]
    cases l.isTransformation <;> cases creator <;> rfl

theorem configureAll_of_not_takes (hl : ∀ l ∈ layers, l.isBuiltIn = true)
    {creator : Option String} {b : DescriptorBuilder} (hb : creator = none → b = {})
    (h : ¬ b.Takes (stackWrites info layers)) :
    ∃ c, configureAll info layers (.made creator b) = .error (.conflict c) := by
  induction layers generalizing creator b with
  | nil => exact absurd ⟨List.nodup_nil, by simp [stackWrites]⟩ h
  | cons l rest ih =>
    obtain ⟨hl, hrest⟩ := List.forall_mem_cons.1 hl
    rw [stackWrites, List.flatMap_cons, takes_append_iff, not_and] at h
    by_cases hw : b.Takes (l.writes info)
    · rw [configureAll, configure_of_takes info hl hb hw]
      exact ih hrest (setAll_writes_eq_empty info hl hb) (h hw)
    · obtain ⟨c, hc⟩ := DescriptorSlot.configure_of_not_takes l.name hb hw
      refine ⟨c, ?_⟩
      rw [configureAll, Layer.configure_of_isBuiltIn hl, Layer.conflicting, hc]
      rfl

/-! ## Which stacks can be configured -/

theorem count_stackWrites (hl : ∀ l ∈ layers, l.isBuiltIn = true) (f : DescriptorField) :
    ((stackWrites info layers).map FieldWrite.field).count f =
      layers.countP (Layer.writesField f) := by
  induction layers with
  | nil => rfl
  | cons l rest ih =>
    obtain ⟨hl, hrest⟩ := List.forall_mem_cons.1 hl
    have ih := ih hrest
    rw [stackWrites] at ih
    rw [stackWrites, List.flatMap_cons, List.map_append, List.count_append, ih,
      Layer.count_writes hl, List.countP_cons, Nat.add_comm]

theorem takes_stackWrites_iff (hl : ∀ l ∈ layers, l.isBuiltIn = true) :
    ({} : DescriptorBuilder).Takes (stackWrites info layers) ↔
      layers.countP Layer.isTask ≤ 1 ∧ layers.countP Layer.isConstraint ≤ 1 ∧
        layers.countP Layer.isMpi ≤ 1 := by
  rw [takes_empty_iff, List.nodup_iff_count_le_one]
  simp only [count_stackWrites info hl]
  constructor
  · intro h
    exact ⟨h .io, h .constraints, h .implementationType⟩
  · rintro ⟨ht, hc, hm⟩ f
    cases f with
    | canonicalSignature | io => exact ht
    | constraints => exact hc
    | implementationType | implementationSignature | implementationArgs => exact hm

/-- The fields that have a value after a stack was configured. -/
theorem has_stackWrites_iff (hl : ∀ l ∈ layers, l.isBuiltIn = true) (f : DescriptorField) :
    (({} : DescriptorBuilder).setAll (stackWrites info layers)).has f = true ↔
      0 < layers.countP (Layer.writesField f) := by
  rw [has_setAll, ← count_stackWrites info hl, List.count_pos_iff]
  cases f <;> simp [has]

/-! ## Completing -/

theorem completeAll_of_countP_eq_zero (hl : ∀ l ∈ layers, l.isBuiltIn = true)
    (ht : layers.countP Layer.isTask = 0) (b : DescriptorBuilder) :
    completeAll info layers b = .ok b := by
  induction layers with
  | nil => rfl
  | cons l rest ih =>
    obtain ⟨hl, hrest⟩ := List.forall_mem_cons.1 hl
    have htask : l.isTask = false := by
      by_contra h
      simp [List.countP_cons, h] at ht
    rw [completeAll, Layer.complete_of_not_isTask hl htask]
    exact ih hrest (by simpa [List.countP_cons, htask] using ht)

theorem completeAll_of_countP_eq_one (hl : ∀ l ∈ layers, l.isBuiltIn = true)
    (ht : layers.countP Layer.isTask = 1) {b : DescriptorBuilder}
    (h : b.Takes (PlainTask.completion info b)) :
    completeAll info layers b = .ok (b.setAll (PlainTask.completion info b)) := by
  induction layers with
  | nil => simp at ht
  | cons l rest ih =>
    obtain ⟨hl, hrest⟩ := List.forall_mem_cons.1 hl
    rw [completeAll]
    cases htask : l.isTask with
    | true =>
      rw [Layer.complete_of_isTask hl htask, writeAll_of_takes _ h]
      exact completeAll_of_countP_eq_zero info hrest (by simpa [List.countP_cons, htask] using ht) _
    | false =>
      rw [Layer.complete_of_not_isTask hl htask]
      exact ih hrest (by simpa [List.countP_cons, htask] using ht)

/-- The base layer finds either a whole implementation or nothing of one. -/
theorem takes_completion (hl : ∀ l ∈ layers, l.isBuiltIn = true) {b : DescriptorBuilder}
    (hb : ({} : DescriptorBuilder).setAll (stackWrites info layers) = b) :
    b.Takes (PlainTask.completion info b) := by
  have hhas := has_stackWrites_iff info hl
  rw [hb] at hhas
  unfold PlainTask.completion
  split
  · exact ⟨List.nodup_nil, by simp⟩
  · next hnone =>
    have htype : ¬ b.has .implementationType = true := hnone
    have hmpi : ¬ 0 < layers.countP Layer.isMpi := fun h => htype ((hhas _).2 h)
    have hsig : ¬ b.has .implementationSignature = true := fun h => hmpi ((hhas _).1 h)
    have hargs : ¬ b.has .implementationArgs = true := fun h => hmpi ((hhas _).1 h)
    refine ⟨by simp [FieldWrite.field], ?_⟩
    simp [FieldWrite.field, htype, hsig, hargs]

/-! ## The descriptor of a stack -/

/-- The fields that a stack gives the descriptor of a task. -/
def stackBuilder (layers : List Layer) : DescriptorBuilder :=
  let b := ({} : DescriptorBuilder).setAll (stackWrites info layers)
  b.setAll (PlainTask.completion info b)

theorem stackBuilder_perm {layers' : List Layer} (hp : layers.Perm layers')
    (h : ({} : DescriptorBuilder).Takes (stackWrites info layers)) :
    stackBuilder info layers = stackBuilder info layers' := by
  have hw : ({} : DescriptorBuilder).setAll (stackWrites info layers) =
      ({} : DescriptorBuilder).setAll (stackWrites info layers') :=
    setAll_perm _ (hp.flatMap_right _) h.1
  rw [stackBuilder, stackBuilder, hw]

theorem isSome_outermostWriter (ht : layers.countP Layer.isTask = 1) :
    (outermostWriter layers).isSome = true := by
  obtain ⟨l, hmem, htask⟩ := List.countP_pos_iff.1 (ht ▸ Nat.one_pos)
  have hnt : l.isTransformation = false := by
    cases l with
    | transformation specs => cases htask
    | _ => rfl
  simpa [outermostWriter] using ⟨l, hmem, hnt⟩

theorem sealed_stackBuilder (hl : ∀ l ∈ layers, l.isBuiltIn = true)
    (ht : layers.countP Layer.isTask = 1) : ∃ d, (stackBuilder info layers).sealed = .ok d := by
  have hbase := (has_stackWrites_iff info hl .canonicalSignature).2 (ht ▸ Nat.one_pos)
  have hsig : (stackBuilder info layers).has .canonicalSignature = true := by
    rw [stackBuilder, has_setAll, hbase, Bool.or_true]
  obtain ⟨signature, hs⟩ := Option.isSome_iff_exists.1 hsig
  rw [sealed, hs]
  exact ⟨_, rfl⟩

theorem describe_of_countP_le (hl : ∀ l ∈ layers, l.isBuiltIn = true)
    (ht : layers.countP Layer.isTask = 1) (hc : layers.countP Layer.isConstraint ≤ 1)
    (hm : layers.countP Layer.isMpi ≤ 1) :
    ∃ r, describe info layers = .ok r ∧ (stackBuilder info layers).sealed = .ok r.descriptor ∧
      outermostWriter layers = some r.createdBy := by
  have htakes := (takes_stackWrites_iff info hl).2 ⟨Nat.le_of_eq ht, hc, hm⟩
  obtain ⟨creator, hcreator⟩ := Option.isSome_iff_exists.1 (isSome_outermostWriter ht)
  obtain ⟨d, hd⟩ := sealed_stackBuilder info hl ht
  have hconf : configureAll info layers {} =
      .ok (.made (some creator) (({} : DescriptorBuilder).setAll (stackWrites info layers))) := by
    have h := configureAll_of_takes info hl (fun _ : none = none => rfl) htakes
    rwa [Option.none_or, hcreator] at h
  have hcomp := completeAll_of_countP_eq_one info hl ht (takes_completion info hl rfl)
  refine ⟨⟨d, creator⟩, ?_, hd, hcreator⟩
  rw [stackBuilder] at hd
  simp only [describe, hconf, DescriptorSlot.made, Option.map_some, bind, Except.bind, hcomp, hd,
    Option.getD_some]

theorem describe_of_not_countP_le (hl : ∀ l ∈ layers, l.isBuiltIn = true)
    (h : ¬ (layers.countP Layer.isConstraint ≤ 1 ∧ layers.countP Layer.isMpi ≤ 1)) :
    ∃ c, describe info layers = .error (.conflict c) := by
  have htakes : ¬ ({} : DescriptorBuilder).Takes (stackWrites info layers) := fun ht =>
    h ((takes_stackWrites_iff info hl).1 ht).2
  obtain ⟨c, hc⟩ := configureAll_of_not_takes info hl (fun _ : none = none => rfl) htakes
  have hconf : configureAll info layers {} = .error (.conflict c) := hc
  exact ⟨c, by rw [describe, hconf]; rfl⟩

/-- The descriptor of a task has its name for a signature. -/
theorem canonicalSignature_of_describe (hl : ∀ l ∈ layers, l.isBuiltIn = true)
    (ht : layers.countP Layer.isTask = 1) (hc : layers.countP Layer.isConstraint ≤ 1)
    (hm : layers.countP Layer.isMpi ≤ 1) {r : Registered} (h : describe info layers = .ok r) :
    r.descriptor.canonicalSignature = info.qualifiedName := by
  obtain ⟨r', hr', hd, -⟩ := describe_of_countP_le info hl ht hc hm
  cases hr'.symm.trans h
  have hwrites : ∀ x, .canonicalSignature x ∈ stackWrites info layers → x = info.qualifiedName := by
    intro x hx
    obtain ⟨l, -, hx⟩ := List.mem_flatMap.1 hx
    cases l with
    | task t => simpa [Layer.writes, PlainTask.writes] using hx
    | constraint c => simp [Layer.writes] at hx
    | mpi m => simp [Layer.writes, MpiParallel.writes] at hx
    | transformation specs => simp [Layer.writes] at hx
    | custom c => simp [Layer.writes] at hx
  have hcompletion : ∀ b : DescriptorBuilder, ∀ x,
      .canonicalSignature x ∈ PlainTask.completion info b → x = info.qualifiedName := by
    intro b x hx
    unfold PlainTask.completion at hx
    split at hx <;> simp at hx
  have hsignature : ∀ x, (stackBuilder info layers).canonicalSignature = some x →
      x = info.qualifiedName :=
    canonicalSignature_setAll (hcompletion _)
      (canonicalSignature_setAll hwrites (b := {}) fun x hx => by cases hx)
  unfold sealed at hd
  split at hd
  · cases hd
  · next x hx =>
    rw [← Except.ok.inj hd]
    exact hsignature x hx

/-- **The order of layers does not change the descriptor.** -/
theorem describe_stackingOrder {layers' : List Layer} (hp : layers.Perm layers')
    (hl : ∀ l ∈ layers, l.isBuiltIn = true) (ht : layers.countP Layer.isTask = 1) :
    ((∃ r, describe info layers = .ok r) ↔ ∃ r, describe info layers' = .ok r) ∧
      ((∃ r, describe info layers = .ok r) ↔
        layers.countP Layer.isConstraint ≤ 1 ∧ layers.countP Layer.isMpi ≤ 1) ∧
      (∀ r r', describe info layers = .ok r → describe info layers' = .ok r' →
        r.descriptor = r'.descriptor ∧ outermostWriter layers = some r.createdBy ∧
          outermostWriter layers' = some r'.createdBy) ∧
      ∀ e, describe info layers = .error e →
        ∃ c c', e = .conflict c ∧ describe info layers' = .error (.conflict c') := by
  have hl' : ∀ l ∈ layers', l.isBuiltIn = true := fun l h => hl l (hp.mem_iff.2 h)
  have ht' : layers'.countP Layer.isTask = 1 := hp.countP_eq _ ▸ ht
  by_cases h : layers.countP Layer.isConstraint ≤ 1 ∧ layers.countP Layer.isMpi ≤ 1
  · have h' := h
    rw [hp.countP_eq, hp.countP_eq] at h'
    obtain ⟨r, hr, hd, hw⟩ := describe_of_countP_le info hl ht h.1 h.2
    obtain ⟨r', hr', hd', hw'⟩ := describe_of_countP_le info hl' ht' h'.1 h'.2
    have htakes := (takes_stackWrites_iff info hl).2 ⟨Nat.le_of_eq ht, h⟩
    have heq : r.descriptor = r'.descriptor := by
      rw [stackBuilder_perm info hp htakes, hd'] at hd
      exact (Except.ok.inj hd).symm
    simp only [hr, hr', Except.ok.injEq, reduceCtorEq, exists_eq', true_iff, iff_self, true_and]
    refine ⟨h, ?_, fun e he => he.elim⟩
    rintro _ _ rfl rfl
    exact ⟨heq, hw, hw'⟩
  · have h' := h
    rw [hp.countP_eq, hp.countP_eq] at h'
    obtain ⟨c, hc⟩ := describe_of_not_countP_le info hl h
    obtain ⟨c', hc'⟩ := describe_of_not_countP_le info hl' h'
    simp only [hc, hc', reduceCtorEq, exists_false, iff_self, false_iff, true_and]
    refine ⟨h, fun _ _ hr => hr.elim, ?_⟩
    rintro _ ⟨⟩
    exact ⟨c, c', rfl, rfl⟩

/-- A stack with a layer of each kind, upside down. -/
theorem describe_stackingOrder_upsideDown :
    let info : TaskInfo := ⟨"demo", "run", {}⟩
    let stack : List Layer := [.constraint ⟨Dict.ofList [("computing_units", "2")]⟩,
      .transformation [], .task { io := true }, .mpi { runner := "mpirun" }]
    ∃ r r', describe info stack = .ok r ∧ describe info stack.reverse = .ok r' ∧
      r.descriptor = r'.descriptor ∧ r.createdBy = "@constraint" ∧ r'.createdBy = "@mpi" := by
  intro info stack
  obtain ⟨hiff, hok, heq, -⟩ := describe_stackingOrder info (List.reverse_perm stack).symm
    (by simp [stack, Layer.isBuiltIn]) (by decide)
  obtain ⟨r, hr⟩ := hok.2 (by decide)
  obtain ⟨r', hr'⟩ := hiff.1 ⟨r, hr⟩
  obtain ⟨hd, hw, hw'⟩ := heq r r' hr hr'
  exact ⟨r, r', hr, hr', hd, (Option.some.inj hw).symm, (Option.some.inj hw').symm⟩

end Declaration
end TaskStack
