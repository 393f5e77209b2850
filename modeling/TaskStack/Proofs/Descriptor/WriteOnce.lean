import TaskStack.Descriptor.Builder
import Mathlib.Data.List.Perm.Basic
import Mathlib.Data.List.Nodup

/-!
# Fields are written once

A descriptor takes a list of writes exactly when the writes name different fields, none of which
has a value. What comes out then is a plain fold, in which the order of the writes does not matter.
So a slot is known by two things, the fold of all writes to it and the layer that came first.

* `DescriptorBuilder.writeAll_of_takes`, `writeAll_of_not_takes`: when writes are taken, and what
  comes out.
* `DescriptorBuilder.setAll_perm`: the order of writes to different fields does not matter.
* `DescriptorSlot.configure_of_takes`: the same on the slot that layers share.
-/

namespace TaskStack

namespace DescriptorBuilder

theorem has_set (b : DescriptorBuilder) (w : FieldWrite) (f : DescriptorField) :
    (b.set w).has f = (decide (w.field = f) || b.has f) := by
  by_cases h : w.field = f
  · subst h
    simp
  · simp [has_set_of_ne b h, h]

/-- Writes to different fields can change places. -/
theorem set_comm (b : DescriptorBuilder) {v w : FieldWrite} (h : v.field ≠ w.field) :
    (b.set v).set w = (b.set w).set v := by
  cases v <;> cases w <;> first | rfl | exact absurd rfl h

/-- The fields after some writes, whatever they held. -/
def setAll (b : DescriptorBuilder) (ws : List FieldWrite) : DescriptorBuilder := ws.foldl set b

@[simp] theorem setAll_nil (b : DescriptorBuilder) : b.setAll [] = b := rfl

@[simp] theorem setAll_cons (b : DescriptorBuilder) (w : FieldWrite) (ws : List FieldWrite) :
    b.setAll (w :: ws) = (b.set w).setAll ws := rfl

theorem setAll_append (b : DescriptorBuilder) (vs ws : List FieldWrite) :
    b.setAll (vs ++ ws) = (b.setAll vs).setAll ws := List.foldl_append

theorem has_setAll (b : DescriptorBuilder) (ws : List FieldWrite) (f : DescriptorField) :
    (b.setAll ws).has f = (decide (f ∈ ws.map FieldWrite.field) || b.has f) := by
  induction ws generalizing b with
  | nil => simp
  | cons w ws ih =>
    rw [setAll_cons, ih, has_set]
    by_cases hw : w.field = f
    · simp [hw]
    · simp [hw, Ne.symm hw]

/-- Writes that agree on the signature leave that one. -/
theorem canonicalSignature_setAll {ws : List FieldWrite} {signature : String}
    (hw : ∀ x, .canonicalSignature x ∈ ws → x = signature) {b : DescriptorBuilder}
    (hb : ∀ x, b.canonicalSignature = some x → x = signature) :
    ∀ x, (b.setAll ws).canonicalSignature = some x → x = signature := by
  induction ws generalizing b with
  | nil => exact hb
  | cons w ws ih =>
    refine ih (fun x hx => hw x (List.mem_cons_of_mem _ hx)) fun x hx => ?_
    cases w with
    | canonicalSignature y =>
      cases hx
      exact hw _ List.mem_cons_self
    | _ => exact hb x hx

/-- **The order of writes to different fields does not matter.** -/
theorem setAll_perm (b : DescriptorBuilder) {vs ws : List FieldWrite} (hp : vs.Perm ws)
    (hd : (vs.map FieldWrite.field).Nodup) : b.setAll vs = b.setAll ws := by
  refine hp.foldl_eq' (fun v hv w hw b => ?_) b
  by_cases h : v.field = w.field
  · rw [List.inj_on_of_nodup_map hd hv hw h]
  · exact set_comm b h

/-- The writes name different fields, none of which has a value. -/
def Takes (b : DescriptorBuilder) (ws : List FieldWrite) : Prop :=
  (ws.map FieldWrite.field).Nodup ∧ ∀ w ∈ ws, b.has w.field = false

theorem takes_empty_iff (ws : List FieldWrite) :
    ({} : DescriptorBuilder).Takes ws ↔ (ws.map FieldWrite.field).Nodup :=
  and_iff_left fun w _ => by cases w <;> rfl

theorem takes_cons_iff (b : DescriptorBuilder) (w : FieldWrite) (ws : List FieldWrite) :
    b.Takes (w :: ws) ↔ b.has w.field = false ∧ (b.set w).Takes ws := by
  simp only [Takes, List.map_cons, List.nodup_cons, List.forall_mem_cons, has_set,
    Bool.or_eq_false_iff, decide_eq_false_iff_not, List.mem_map, not_exists, not_and]
  constructor
  · rintro ⟨⟨hw, hd⟩, hb, hws⟩
    exact ⟨hb, hd, fun v hv => ⟨fun h => hw v hv h.symm, hws v hv⟩⟩
  · rintro ⟨hb, hd, hws⟩
    exact ⟨⟨fun v hv h => (hws v hv).1 h.symm, hd⟩, hb, fun v hv => (hws v hv).2⟩

theorem takes_append_iff (b : DescriptorBuilder) (vs ws : List FieldWrite) :
    b.Takes (vs ++ ws) ↔ b.Takes vs ∧ (b.setAll vs).Takes ws := by
  induction vs generalizing b with
  | nil => simp [Takes]
  | cons v vs ih =>
    rw [List.cons_append, takes_cons_iff, takes_cons_iff, ih, setAll_cons, and_assoc]

theorem writeAll_of_takes (writer : String) {b : DescriptorBuilder} {ws : List FieldWrite}
    (h : b.Takes ws) : b.writeAll writer ws = (.ok (), b.setAll ws) := by
  induction ws generalizing b with
  | nil => rfl
  | cons w ws ih =>
    obtain ⟨hw, hws⟩ := (takes_cons_iff b w ws).1 h
    simp [writeAll, write, hw, ih hws]

theorem writeAll_of_not_takes (writer : String) {b : DescriptorBuilder} {ws : List FieldWrite}
    (h : ¬ b.Takes ws) : ∃ c, (b.writeAll writer ws).1 = .error c := by
  induction ws generalizing b with
  | nil => exact absurd ⟨List.nodup_nil, by simp⟩ h
  | cons w ws ih =>
    cases hw : b.has w.field with
    | true => exact ⟨⟨w.field, writer⟩, by simp [writeAll, write, hw]⟩
    | false =>
      obtain ⟨c, hc⟩ := ih fun hws => h ((takes_cons_iff b w ws).2 ⟨hw, hws⟩)
      exact ⟨c, by simpa [writeAll, write, hw] using hc⟩

end DescriptorBuilder

namespace DescriptorSlot

/-- The slot that a layer created, if one did, with the fields written since. -/
def made (creator : Option String) (b : DescriptorBuilder) : DescriptorSlot :=
  ⟨creator.map fun _ => b, creator⟩

variable {creator : Option String} {b : DescriptorBuilder} {ws : List FieldWrite}

theorem configure_of_takes (writer : String) (hb : creator = none → b = {}) (h : b.Takes ws) :
    (made creator b).configure writer ws =
      (.ok (), made (creator.or (if ws.isEmpty then none else some writer)) (b.setAll ws)) := by
  cases ws with
  | nil => simp [configure]
  | cons w ws =>
    cases creator with
    | none =>
      obtain rfl := hb rfl
      simp [configure, made, getOrCreate, DescriptorBuilder.writeAll_of_takes writer h]
    | some _ => simp [configure, made, getOrCreate, DescriptorBuilder.writeAll_of_takes writer h]

theorem configure_of_not_takes (writer : String) (hb : creator = none → b = {})
    (h : ¬ b.Takes ws) : ∃ c, ((made creator b).configure writer ws).1 = .error c := by
  obtain ⟨c, hc⟩ := DescriptorBuilder.writeAll_of_not_takes writer h
  cases ws with
  | nil => exact absurd ⟨List.nodup_nil, by simp⟩ h
  | cons w ws =>
    cases creator with
    | none =>
      obtain rfl := hb rfl
      exact ⟨c, by simpa [configure, made, getOrCreate] using hc⟩
    | some _ => exact ⟨c, by simpa [configure, made, getOrCreate] using hc⟩

end DescriptorSlot
end TaskStack
