import TaskStack.Proofs.Descriptor.WriteOnce

/-!
# The first writer of a field wins

Writers may go on after a refusal. A refused call leaves the descriptor as it is, so a field has the
value of the first call on it, and whether a call is refused depends on the calls on its own field
alone. The slot that layers share adds no more than the name of the layer that came first: the
descriptor in it is that of all calls so far.

**Theorem (`firstWriter_wins`).** A call is refused exactly when an earlier one was on the same
field. A descriptor can be closed exactly when a canonical signature was written, and holds the
first value of each field. Calls on different fields may change places. A slot has a descriptor
exactly when it has a creator, which is the layer that asked for it first, and it keeps what was
written.

* `DescriptorBuilder.held?_callAll`: what a field holds after some calls.
* `DescriptorBuilder.getElem?_answers`: what is answered to the calls, one by one.
* `DescriptorSlot.turns_eq`: what a slot is after some turns of layers.
-/

namespace TaskStack

/-- A call of a writer on a field. -/
structure FieldCall where
  writer : String
  write : FieldWrite

def FieldCall.field (c : FieldCall) : DescriptorField := c.write.field

namespace DescriptorBuilder

variable {b : DescriptorBuilder} {c : FieldCall} {calls : List FieldCall} {f : DescriptorField}

/-! ## What a field holds -/

/-- The write that a field has its value from. -/
def held? (b : DescriptorBuilder) : DescriptorField → Option FieldWrite
  | .canonicalSignature => b.canonicalSignature.map .canonicalSignature
  | .implementationSignature => b.implementationSignature.map .implementationSignature
  | .constraints => b.constraints.map .constraints
  | .implementationType => b.implementationType.map .implementationType
  | .io => b.io.map .io
  | .implementationArgs => b.implementationArgs.map .implementationArgs

@[simp] theorem held?_new (f : DescriptorField) : ({} : DescriptorBuilder).held? f = none := by
  cases f <;> rfl

@[simp] theorem isSome_held? (b : DescriptorBuilder) (f : DescriptorField) :
    (b.held? f).isSome = b.has f := by
  cases f <;> exact Option.isSome_map

theorem held?_set (b : DescriptorBuilder) (w : FieldWrite) (f : DescriptorField) :
    (b.set w).held? f = if w.field = f then some w else b.held? f := by
  cases w <;> cases f <;> rfl

/-- A descriptor under construction is what its fields hold. -/
theorem ext_held? {b' : DescriptorBuilder} (h : ∀ f, b.held? f = b'.held? f) : b = b' := by
  have hsignature := Option.map_injective (fun _ _ => FieldWrite.canonicalSignature.inj)
    (h .canonicalSignature)
  have himplementation := Option.map_injective (fun _ _ => FieldWrite.implementationSignature.inj)
    (h .implementationSignature)
  have hconstraints := Option.map_injective (fun _ _ => FieldWrite.constraints.inj) (h .constraints)
  have htype := Option.map_injective (fun _ _ => FieldWrite.implementationType.inj)
    (h .implementationType)
  have hio := Option.map_injective (fun _ _ => FieldWrite.io.inj) (h .io)
  have hargs := Option.map_injective (fun _ _ => FieldWrite.implementationArgs.inj)
    (h .implementationArgs)
  cases b
  cases b'
  rw [mk.injEq]
  exact ⟨hsignature, himplementation, hconstraints, htype, hio, hargs⟩

/-! ## Calls -/

/-- One call: what the writer is told, and the descriptor after it. -/
def call (b : DescriptorBuilder) (c : FieldCall) :
    Except DescriptorConflict Unit × DescriptorBuilder :=
  b.writeAll c.writer [c.write]

/-- The descriptor after some calls, whatever was answered to them. -/
def callAll (b : DescriptorBuilder) (calls : List FieldCall) : DescriptorBuilder :=
  calls.foldl (fun b c => (b.call c).2) b

/-- What is answered to calls made one after another. -/
def answers (b : DescriptorBuilder) : List FieldCall → List (Except DescriptorConflict Unit)
  | [] => []
  | c :: rest => (b.call c).1 :: (b.call c).2.answers rest

theorem callAll_append (b : DescriptorBuilder) (calls more : List FieldCall) :
    b.callAll (calls ++ more) = (b.callAll calls).callAll more := List.foldl_append

/-- **One call:** refused if the field has a value, and then nothing changes. -/
theorem call_eq (b : DescriptorBuilder) (c : FieldCall) : b.call c =
    if b.has c.field then (.error ⟨c.field, c.writer⟩, b) else (.ok (), b.set c.write) := by
  unfold call writeAll write
  rw [← FieldCall.field]
  cases b.has c.field <;> rfl

theorem held?_call (b : DescriptorBuilder) (c : FieldCall) (f : DescriptorField) :
    (b.call c).2.held? f = (b.held? f).or (if c.field = f then some c.write else none) := by
  rw [call_eq]
  cases hhas : b.has c.field with
  | true =>
    by_cases hf : c.field = f
    · obtain ⟨w, hw⟩ := Option.isSome_iff_exists.1 ((isSome_held? b f).trans (hf ▸ hhas))
      simp [hw]
    · simp [hf]
  | false =>
    rw [if_neg (by simp), held?_set, ← FieldCall.field]
    by_cases hf : c.field = f
    · have hnone : b.held? f = none := by
        rw [← Option.isNone_iff_eq_none, ← Option.isSome_eq_false_iff, isSome_held?, ← hf, hhas]
      simp [hf, hnone]
    · simp [hf]

/-- **A field keeps its value,** and gets that of the first call on it if it has none. -/
theorem held?_callAll (b : DescriptorBuilder) (calls : List FieldCall) (f : DescriptorField) :
    (b.callAll calls).held? f =
      (b.held? f).or ((calls.find? (·.field = f)).map FieldCall.write) := by
  induction calls generalizing b with
  | nil => simp [callAll]
  | cons c calls ih =>
    rw [callAll, List.foldl_cons, ← callAll, ih, held?_call, Option.or_assoc]
    by_cases hf : c.field = f <;> simp [hf]

theorem has_callAll_iff : (b.callAll calls).has f = true ↔
    b.has f = true ∨ ∃ c ∈ calls, c.field = f := by
  rw [← isSome_held?, held?_callAll, Option.isSome_or, Bool.or_eq_true, isSome_held?,
    Option.isSome_map, List.find?_isSome]
  simp only [decide_eq_true_eq]

/-- **What is answered to a call** depends on the calls before it. -/
theorem getElem?_answers (b : DescriptorBuilder) (calls : List FieldCall) (i : Nat) :
    (b.answers calls)[i]? = calls[i]?.map fun c => ((b.callAll (calls.take i)).call c).1 := by
  induction calls generalizing b i with
  | nil => rfl
  | cons c calls ih =>
    cases i with
    | zero => rfl
    | succ i =>
      rw [answers, List.getElem?_cons_succ, List.getElem?_cons_succ, ih]
      rfl

/-- A call that is refused changes nothing. -/
theorem callAll_take_succ {i : Nat} {e : DescriptorConflict}
    (h : (b.answers calls)[i]? = some (.error e)) :
    b.callAll (calls.take (i + 1)) = b.callAll (calls.take i) := by
  rw [getElem?_answers, Option.map_eq_some_iff] at h
  obtain ⟨c, hc, herror⟩ := h
  rw [List.take_add_one, hc, Option.toList_some, callAll_append]
  change ((b.callAll (calls.take i)).call c).2 = _
  rw [call_eq] at herror ⊢
  split at herror
  · next hhas => rw [if_pos hhas]
  · cases herror

/-- Writes that end with a refusal are the calls before it. -/
theorem exists_writeAll_eq_callAll (b : DescriptorBuilder) (writer : String)
    (ws : List FieldWrite) : ∃ taken, taken <+: ws ∧
      (b.writeAll writer ws).2 = b.callAll (taken.map fun w => ⟨writer, w⟩) := by
  induction ws generalizing b with
  | nil => exact ⟨[], List.nil_prefix, rfl⟩
  | cons w ws ih =>
    cases hhas : b.has w.field with
    | true => exact ⟨[], List.nil_prefix, by simp [writeAll, write, callAll, hhas]⟩
    | false =>
      obtain ⟨taken, hprefix, htaken⟩ := ih (b.set w)
      refine ⟨w :: taken, (List.prefix_cons_inj w).2 hprefix, ?_⟩
      have hcall : b.call ⟨writer, w⟩ = (.ok (), b.set w) := by
        rw [call_eq, FieldCall.field, hhas]
        rfl
      rw [List.map_cons, callAll, List.foldl_cons, hcall, ← callAll, ← htaken]
      simp [writeAll, write, hhas]

end DescriptorBuilder

/-! ## The closed descriptor -/

/-- A closed descriptor with its fields as they were before. -/
def TaskDescriptor.opened (d : TaskDescriptor) : DescriptorBuilder where
  canonicalSignature := some d.canonicalSignature
  implementationSignature := d.implementationSignature
  constraints := d.constraints
  implementationType := d.implementationType
  io := d.io
  implementationArgs := d.implementationArgs

/-- The write that a field of a closed descriptor has its value from. -/
def TaskDescriptor.held? (d : TaskDescriptor) (f : DescriptorField) : Option FieldWrite :=
  d.opened.held? f

namespace DescriptorBuilder

variable {b : DescriptorBuilder} {calls others : List FieldCall} {d : TaskDescriptor}

theorem sealed_eq_ok_iff : b.sealed = .ok d ↔ b = d.opened := by
  obtain ⟨signature, implementation, constraints, type, io, args⟩ := b
  cases signature with
  | none => simp [sealed, TaskDescriptor.opened]
  | some signature =>
    obtain ⟨signature', implementation', constraints', type', io', args'⟩ := d
    simp [sealed, TaskDescriptor.opened]

theorem exists_sealed_iff : (∃ d, b.sealed = .ok d) ↔ b.has .canonicalSignature = true := by
  unfold sealed has
  cases b.canonicalSignature <;> simp

/-- The calls on each field are the same, in the same order. -/
def SameOnFields (calls others : List FieldCall) : Prop :=
  ∀ f : DescriptorField, calls.filter (·.field = f) = others.filter (·.field = f)

/-- **Calls on different fields may change places.** -/
theorem callAll_congr (b : DescriptorBuilder) (h : SameOnFields calls others) :
    b.callAll calls = b.callAll others := by
  refine ext_held? fun f => ?_
  rw [held?_callAll, held?_callAll, ← List.head?_filter, ← List.head?_filter, h f]

end DescriptorBuilder

/-! ## Slots -/

/-- What a layer does when it has its turn at a slot: it asks for the descriptor, and makes some
calls on it. -/
structure Turn where
  creator : String
  calls : List FieldCall

namespace DescriptorSlot

/-- The slot after a turn. -/
def turn (s : DescriptorSlot) (t : Turn) : DescriptorSlot :=
  let (b, s) := s.getOrCreate t.creator
  { s with builder := some (b.callAll t.calls) }

def turns (s : DescriptorSlot) (ts : List Turn) : DescriptorSlot := ts.foldl turn s

theorem turns_append (s : DescriptorSlot) (ts more : List Turn) :
    s.turns (ts ++ more) = (s.turns ts).turns more := List.foldl_append

/-- A slot that has a descriptor keeps its creator, and all calls go to that descriptor. -/
theorem turns_of_builder {s : DescriptorSlot} {b : DescriptorBuilder} (h : s.builder = some b)
    (ts : List Turn) :
    s.turns ts = { s with builder := some (b.callAll (ts.flatMap Turn.calls)) } := by
  induction ts generalizing s b with
  | nil =>
    cases s
    cases h
    rfl
  | cons t ts ih =>
    have hturn : s.turn t = { s with builder := some (b.callAll t.calls) } := by
      rw [turn, getOrCreate, h]
    rw [turns, List.foldl_cons, ← turns, ih (by rw [hturn]), hturn, List.flatMap_cons,
      DescriptorBuilder.callAll_append]

/-- **A slot after some turns:** the layer that came first, and all calls so far. -/
theorem turns_eq (ts : List Turn) : ({} : DescriptorSlot).turns ts =
    made (ts.head?.map Turn.creator)
      (({} : DescriptorBuilder).callAll (ts.flatMap Turn.calls)) := by
  cases ts with
  | nil => rfl
  | cons t ts =>
    rw [turns, List.foldl_cons, ← turns, turns_of_builder rfl, List.flatMap_cons,
      DescriptorBuilder.callAll_append]
    rfl

/-- What a layer writes when it is configured is a turn, which ends before the first refusal. -/
theorem configure_eq_turn (s : DescriptorSlot) (writer : String) {ws : List FieldWrite}
    (h : ws ≠ []) : ∃ taken, taken <+: ws ∧
      (s.configure writer ws).2 = s.turn ⟨writer, taken.map fun w => ⟨writer, w⟩⟩ := by
  obtain ⟨taken, hprefix, htaken⟩ := (s.getOrCreate writer).1.exists_writeAll_eq_callAll writer ws
  refine ⟨taken, hprefix, ?_⟩
  rw [configure, if_neg (by simpa using h)]
  simp only [turn, ← htaken]

end DescriptorSlot

/-! ## The first writer -/

/-- What becomes of calls on a new descriptor. -/
structure FirstWriterWins (calls : List FieldCall) : Prop where
  /-- A call is refused when one before it was on its field, and is told the field and its own
  writer. -/
  answer : ∀ i, (({} : DescriptorBuilder).answers calls)[i]? = calls[i]?.map fun c =>
    if c.field ∈ (calls.take i).map FieldCall.field then .error ⟨c.field, c.writer⟩ else .ok ()
  unchanged : ∀ i e, (({} : DescriptorBuilder).answers calls)[i]? = some (.error e) →
    ({} : DescriptorBuilder).callAll (calls.take (i + 1)) =
      ({} : DescriptorBuilder).callAll (calls.take i)
  sealed_iff : (∃ d, (({} : DescriptorBuilder).callAll calls).sealed = .ok d) ↔
    ∃ c ∈ calls, c.field = .canonicalSignature
  /-- Every field has the value of the first call on it, and none if there was no call. -/
  holds : ∀ d, (({} : DescriptorBuilder).callAll calls).sealed = .ok d ↔
    ∀ f, d.held? f = (calls.find? (·.field = f)).map FieldCall.write
  reordered : ∀ others, DescriptorBuilder.SameOnFields calls others →
    (({} : DescriptorBuilder).callAll others).sealed =
      (({} : DescriptorBuilder).callAll calls).sealed

/-- What becomes of the turns of layers at a new slot. -/
structure KeepsCreator (ts : List Turn) : Prop where
  created_iff : (({} : DescriptorSlot).turns ts).builder.isSome ↔
    (({} : DescriptorSlot).turns ts).createdBy.isSome
  creator : (({} : DescriptorSlot).turns ts).createdBy = ts.head?.map Turn.creator
  holds : ∀ b, (({} : DescriptorSlot).turns ts).builder = some b → ∀ f,
    b.held? f = ((ts.flatMap Turn.calls).find? (·.field = f)).map FieldCall.write
  /-- The creator and every write stay, whatever turns come after. -/
  creator_kept : ∀ more name, (({} : DescriptorSlot).turns ts).createdBy = some name →
    (({} : DescriptorSlot).turns (ts ++ more)).createdBy = some name
  write_kept : ∀ more b f w, (({} : DescriptorSlot).turns ts).builder = some b →
    b.held? f = some w →
    ∃ b', (({} : DescriptorSlot).turns (ts ++ more)).builder = some b' ∧ b'.held? f = some w

theorem DescriptorSlot.eq_callAll_of_builder {ts : List Turn} {b : DescriptorBuilder}
    (h : (({} : DescriptorSlot).turns ts).builder = some b) :
    b = ({} : DescriptorBuilder).callAll (ts.flatMap Turn.calls) := by
  rw [turns_eq, made, Option.map_eq_some_iff] at h
  obtain ⟨-, -, rfl⟩ := h
  rfl

theorem firstWriterWins_callAll (calls : List FieldCall) : FirstWriterWins calls where
  answer i := by
    rw [DescriptorBuilder.getElem?_answers]
    refine congrArg (Option.map · calls[i]?) (funext fun c => ?_)
    -- a field has a value by then exactly when one of the calls before was on it
    have hhas : (({} : DescriptorBuilder).callAll (calls.take i)).has c.field = true ↔
        c.field ∈ (calls.take i).map FieldCall.field := by
      rw [DescriptorBuilder.has_callAll_iff, List.mem_map, ← DescriptorBuilder.isSome_held?,
        DescriptorBuilder.held?_new]
      simp
    rw [DescriptorBuilder.call_eq]
    simp only [hhas]
    split <;> rfl
  unchanged _ _ := DescriptorBuilder.callAll_take_succ
  sealed_iff := by
    rw [DescriptorBuilder.exists_sealed_iff, DescriptorBuilder.has_callAll_iff]
    exact or_iff_right (by decide)
  holds d := by
    rw [DescriptorBuilder.sealed_eq_ok_iff]
    constructor
    · intro h f
      rw [TaskDescriptor.held?, ← h, DescriptorBuilder.held?_callAll, DescriptorBuilder.held?_new,
        Option.none_or]
    · intro h
      refine DescriptorBuilder.ext_held? fun f => ?_
      rw [DescriptorBuilder.held?_callAll, DescriptorBuilder.held?_new, Option.none_or, ← h f]
      rfl
  reordered _ h := by rw [DescriptorBuilder.callAll_congr _ h]

theorem keepsCreator_turns (ts : List Turn) : KeepsCreator ts where
  created_iff := by
    rw [DescriptorSlot.turns_eq]
    cases ts <;> simp [DescriptorSlot.made]
  creator := by rw [DescriptorSlot.turns_eq, DescriptorSlot.made]
  holds b hb f := by
    rw [DescriptorSlot.eq_callAll_of_builder hb, DescriptorBuilder.held?_callAll,
      DescriptorBuilder.held?_new, Option.none_or]
  creator_kept more name h := by
    rw [DescriptorSlot.turns_eq, DescriptorSlot.made] at h ⊢
    cases ts with
    | nil => cases h
    | cons t ts => exact h
  write_kept more b f w hb hw := by
    rw [DescriptorSlot.turns_append, DescriptorSlot.turns_of_builder hb]
    refine ⟨_, rfl, ?_⟩
    rw [DescriptorBuilder.held?_callAll, hw, Option.some_or]

/-- **The first writer wins,** of a field and of a slot. -/
theorem firstWriter_wins (calls : List FieldCall) (ts : List Turn) :
    FirstWriterWins calls ∧ KeepsCreator ts :=
  ⟨firstWriterWins_callAll calls, keepsCreator_turns ts⟩

/-- A field that is written again keeps its first value, and the slot its first layer. -/
example :
    let first : Turn := ⟨"@constraint", [⟨"@constraint", .io true⟩]⟩
    let second : Turn := ⟨"@task", [⟨"@task", .canonicalSignature "demo.f"⟩, ⟨"@task", .io false⟩]⟩
    let slot := ({} : DescriptorSlot).turns [first, second]
    (({} : DescriptorBuilder).answers (first.calls ++ second.calls)) =
        [.ok (), .ok (), .error ⟨.io, "@task"⟩] ∧
      slot.createdBy = some "@constraint" ∧
      slot.builder.map (·.sealed) =
        some (.ok { canonicalSignature := "demo.f", io := some true }) :=
  ⟨rfl, rfl, rfl⟩

end TaskStack
