import TaskStack.Proofs.Call.Resolution

/-!
# Values put in the place of others

Substitutions one after another, each of the value of one parameter. What becomes of the arguments
is told parameter by parameter: the values of one are handed on from each of its substitutions to
the next, and the last one stays; what is no target stays as it was. A value is kept where it was
found, so nothing moves between the positions and the names, except that a value which came from a
declaration is passed by name afterwards.

**Theorem (`Substituted.cons`).** One substitution before others.
-/

namespace TaskStack

/-- A value that was put in the place of another. -/
structure Substitution where
  target : String
  given : Value
  yielded : Value

/-- The values of substitutions hang together: the first was given `v`, each later one what the one
before it yielded, and the last one yielded `w`. -/
def HandsOn : Value → List Substitution → Value → Prop
  | v, [], w => v = w
  | v, u :: us, w => u.given = v ∧ HandsOn u.yielded us w

/-- The second arguments are the first after the substitutions. `target` and `other` tell what a
body sees of them; `position`, `positional`, `named` and `added` tell where the values are, and that
none moves, except that what came from a declaration is passed by name. -/
structure Substituted (s : Schema) (us : List Substitution) (a b : Args) : Prop where
  target : ∀ name ∈ us.map (·.target), ∃ w,
    HandsOn (((Bound.of s a).get? name).getD .null) (us.filter (·.target = name)) w ∧
      (Bound.of s b).get? name = some w
  other : ∀ name ∉ us.map (·.target), (Bound.of s b).get? name = (Bound.of s a).get? name
  length : b.positional.length = a.positional.length
  position : ∀ index, b.positional[index]? = a.positional[index]? ∨
    ∃ name ∈ us.map (·.target), a.FromPosition s name index
  positional : ∀ name index, a.FromPosition s name index → b.named.get? name = none
  named : ∀ name ∉ us.map (·.target), b.named.get? name = a.named.get? name
  added : ∀ name, b.named.contains name = true ↔
    a.named.contains name = true ∨ name ∈ us.map (·.target) ∧ a.FromDefault s name
  markers : b.markers = a.markers

namespace Substituted

variable {s : Schema} {us : List Substitution} {a b : Args} {name : String} {site : Site}
  {v w : Value}

theorem refl (s : Schema) (a : Args) : Substituted s [] a a where
  target := by simp
  other _ _ := rfl
  length := rfl
  position _ := .inl rfl
  positional name index h :=
    Dict.contains_eq_false_iff.1 (Args.fromPosition_iff.1 h).2.1
  named _ _ := rfl
  added := by simp
  markers := rfl

/-- It does not matter which transformations a call brings along. -/
theorem bringing {ts : List Transform} (h : Substituted s us { a with transforms := ts } b) :
    Substituted s us a b :=
  ⟨h.target, h.other, h.length, h.position, h.positional, h.named, h.added, h.markers⟩

/-- **One substitution before others.** -/
theorem cons (hname : Marker.isMarker name = false) (h : a.locate s name = some (site, v))
    (hrest : Substituted s us (a.replace site name w) b) :
    Substituted s (⟨name, v, w⟩ :: us) a b where
  target other hother := by
    have hself : (Bound.of s (a.replace site name w)).get? name = some w :=
      Bound.get?_replace_self hname h w
    by_cases hne : name = other
    · subst hne
      have hhead : HandsOn (((Bound.of s a).get? name).getD .null) [⟨name, v, w⟩] w :=
        ⟨Args.eq_get?_of_locate hname h, rfl⟩
      simp only [List.filter_cons, decide_true, if_true]
      by_cases hmem : name ∈ us.map (·.target)
      · obtain ⟨w', hon, hget⟩ := hrest.target name hmem
        rw [hself] at hon
        exact ⟨w', ⟨hhead.1, hon⟩, hget⟩
      · have hnone : us.filter (·.target = name) = [] := by
          rw [List.filter_eq_nil_iff]
          intro u hu htarget
          exact hmem (List.mem_map.2 ⟨u, hu, of_decide_eq_true htarget⟩)
        rw [hnone]
        exact ⟨w, hhead, (hrest.other name hmem).trans hself⟩
    · have hmem : other ∈ us.map (·.target) := by
        obtain rfl | hmem := List.mem_cons.1 hother
        · exact absurd rfl hne
        · exact hmem
      obtain ⟨w', hon, hget⟩ := hrest.target other hmem
      rw [Bound.get?_replace_of_ne h w hne] at hon
      rw [List.filter_cons_of_neg (by simpa using hne)]
      exact ⟨w', hon, hget⟩
  other other hother := by
    obtain ⟨hne, hmem⟩ := not_or.1 (mt List.mem_cons.2 hother)
    exact (hrest.other other hmem).trans (Bound.get?_replace_of_ne h w (Ne.symm hne))
  length := hrest.length.trans (Args.length_positional_replace ..)
  position index := by
    obtain hrest | ⟨other, hmem, hfrom⟩ := hrest.position index
    · obtain hfirst | hfrom := Args.positional_replace h w index
      · exact .inl (hrest.trans hfirst)
      · exact .inr ⟨name, List.mem_cons_self, hfrom⟩
    · exact .inr ⟨other, List.mem_cons_of_mem _ hmem, (Args.fromPosition_replace h w).1 hfrom⟩
  positional other index hfrom :=
    hrest.positional other index ((Args.fromPosition_replace h w).2 hfrom)
  named other hother := by
    obtain ⟨hne, hmem⟩ := not_or.1 (mt List.mem_cons.2 hother)
    exact (hrest.named other hmem).trans (Args.named_replace_of_ne a site w (Ne.symm hne))
  added other := by
    rw [hrest.added, List.map_cons, List.mem_cons]
    by_cases hne : name = other
    · subst hne
      rw [Args.contains_named_replace h w]
      have hafter := Args.not_fromDefault_replace h w
      simp [hafter]
    · have hcontains : (a.replace site name w).named.contains other = a.named.contains other := by
        rw [Dict.contains, Args.named_replace_of_ne a site w hne, Dict.contains]
      rw [hcontains, Args.fromDefault_replace_of_ne w hne]
      simp [Ne.symm hne]
  markers := hrest.markers.trans (Args.markers_replace a site hname w)

end Substituted
end TaskStack
