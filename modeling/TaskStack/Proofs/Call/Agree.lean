import TaskStack.Call.Region

/-!
# Marks do not matter to a body

Layers put marks on the arguments of a call, and a transformation below them sees the arguments with
their marks on. But a declared parameter is no mark, so where its value comes from does not depend
on the marks, and neither does what a body sees.

* `Args.agree_marked`: the arguments below a layer agree with those above it.
* `Args.Agree.locate_eq`, `Args.Agree.replace`: agreeing arguments are transformed alike.
* `Bound.of_agree`: a body sees agreeing arguments as the same.
-/

namespace TaskStack

/-- No declared parameter has the name of a mark. -/
def Schema.Unmarked (s : Schema) : Prop := ∀ p ∈ s.params, Marker.isMarker p.name = false

theorem Schema.Unmarked.of_position {s : Schema} (h : s.Unmarked) {name : String} {index : Nat}
    (hindex : s.position? name = some index) : Marker.isMarker name = false := by
  obtain ⟨hlt, heq, -⟩ := List.findIdx?_eq_some_iff_getElem.1 hindex
  rw [← of_decide_eq_true heq]
  exact h _ (List.getElem_mem hlt)

namespace Args

variable {a b c : Args}

/-- Arguments that are the same but for their marks and for what they brought along. -/
structure Agree (a b : Args) : Prop where
  positional : a.positional = b.positional
  named : ∀ name, Marker.isMarker name = false → a.named.get? name = b.named.get? name

theorem Agree.refl (a : Args) : a.Agree a := ⟨rfl, fun _ _ => rfl⟩

theorem Agree.trans (h : a.Agree b) (h' : b.Agree c) : a.Agree c :=
  ⟨h.positional.trans h'.positional,
    fun name hname => (h.named name hname).trans (h'.named name hname)⟩

/-! ## Marks -/

theorem agree_setNamed (a : Args) {name : String} (h : Marker.isMarker name = true) (v : Value) :
    (a.setNamed name v).Agree a := by
  refine ⟨rfl, ?_⟩
  intro name' hname'
  have hne : name ≠ name' := by
    intro heq
    rw [← heq, h] at hname'
    cases hname'
  exact Dict.get?_insert_of_ne _ _ hne

theorem agree_acquire (a : Args) (prepend : Option Bool) : (a.acquire prepend).Agree a := by
  cases prepend with
  | none => exact .refl a
  | some b => exact agree_setNamed a (by decide) _

/-- The arguments below a layer are those above it with more marks. -/
theorem agree_marked (a : Args) (prepend : Option Bool) (markers : List (String × Value)) :
    (a.marked prepend markers).Agree a := by
  have hfold : ∀ b : Args, (markers.foldl (fun a m => a.mark m.1 m.2) b).Agree b := by
    induction markers with
    | nil => exact .refl
    | cons m rest ih =>
      intro b
      exact (ih _).trans (agree_setNamed b (Marker.isMarker_named m.1) m.2)
  exact (hfold _).trans (agree_acquire a prepend)

theorem transforms_marked (a : Args) (prepend : Option Bool) (markers : List (String × Value)) :
    (a.marked prepend markers).transforms = a.transforms := by
  have hfold : ∀ b : Args,
      (markers.foldl (fun a m => a.mark m.1 m.2) b).transforms = b.transforms := by
    induction markers with
    | nil => exact fun _ => rfl
    | cons m rest ih => exact fun b => ih _
  rw [marked, hfold]
  cases prepend <;> rfl

theorem agree_withoutMarkers (a : Args) : a.withoutMarkers.Agree a := by
  refine ⟨rfl, ?_⟩
  intro name hname
  rw [withoutMarkers, Dict.get?_filterKeys, if_pos (by simp [hname])]

/-! ## Transformations -/

/-- Agreeing arguments give a declared parameter its value from the same place. -/
theorem Agree.locate_eq (h : a.Agree b) {s : Schema} (hs : s.Unmarked) (name : String) :
    a.locate s name = b.locate s name := by
  unfold locate
  cases hposition : s.position? name with
  | none => rfl
  | some index =>
    rw [h.named name (hs.of_position hposition), h.positional]

theorem Agree.setNamed (h : a.Agree b) (name : String) (v : Value) :
    (a.setNamed name v).Agree (b.setNamed name v) := by
  refine ⟨h.positional, ?_⟩
  intro name' hname'
  simp only [Args.setNamed, Dict.get?_insert, h.named name' hname']

/-- Writing a value at one place keeps the agreement. -/
theorem Agree.replace (h : a.Agree b) (site : Site) (name : String) (v : Value) :
    (a.replace site name v).Agree (b.replace site name v) := by
  cases site with
  | keyword => exact h.setNamed name v
  | default => exact h.setNamed name v
  | positional index =>
    simp only [Args.replace, h.positional]
    split
    · exact ⟨rfl, h.named⟩
    · exact h.setNamed name v

theorem transforms_replace (a : Args) (site : Site) (name : String) (v : Value) :
    (a.replace site name v).transforms = a.transforms := by
  cases site with
  | keyword => rfl
  | default => rfl
  | positional index =>
    simp only [replace]
    split <;> rfl

end Args

/-- **A body sees agreeing arguments as the same.** -/
theorem Bound.of_agree {a b : Args} (h : a.Agree b) (s : Schema) : Bound.of s a = Bound.of s b := by
  unfold Bound.of
  congr
  funext name
  rw [h.positional]
  cases hname : Marker.isMarker name with
  | true => rfl
  | false => rw [h.named name hname]

end TaskStack
