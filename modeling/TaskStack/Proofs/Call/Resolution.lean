import TaskStack.Call.Args

/-!
# Where a parameter gets its value from

A transformation and a body look for the value of a parameter in the same places: among the
arguments passed by name, at the position of the parameter, and in its declaration. A new value is
written where the old one was found, and one that came from a declaration becomes an argument passed
by name. So whoever looks next finds the new value, and finds every other parameter as it was.

* `Args.replace_cases`: the two ways to write a value.
* `Args.eq_get?_of_locate`: a transformation is given what a body would see.
* `Bound.get?_replace_self`, `Bound.get?_replace_of_ne`: what a body sees after the writing.
* `Args.locate_replace_self`, `Args.locate_replace_of_ne`: where the values come from then.
* `Args.lookups_agree`: both look-ups together, before and after the writing.
-/

namespace TaskStack

variable {s : Schema} {a : Args} {name other : String} {site : Site} {index : Nat} {v w : Value}

theorem Dict.contains_eq_false_iff {α : Type} {d : Dict α} {k : String} :
    d.contains k = false ↔ d.get? k = none := by
  rw [contains, Option.isSome_eq_false_iff, Option.isNone_iff_eq_none]

/-- A position belongs to one name. -/
theorem Schema.position?_injective (h : s.position? name = some index)
    (h' : s.position? other = some index) : name = other := by
  obtain ⟨_, hname, -⟩ := List.findIdx?_eq_some_iff_getElem.1 h
  obtain ⟨_, hother, -⟩ := List.findIdx?_eq_some_iff_getElem.1 h'
  exact (of_decide_eq_true hname).symm.trans (of_decide_eq_true hother)

theorem Schema.mem_names_iff : name ∈ s.names ↔ ∃ index, s.position? name = some index := by
  rw [← Option.isSome_iff_exists, position?, List.findIdx?_isSome]
  simp [names]

theorem Schema.exists_get? (h : name ∈ s.names) : ∃ p, s.get? name = some p := by
  rw [← Option.isSome_iff_exists, get?, List.find?_isSome]
  simpa [names] using h

/-- The place of a value after it was written: what came from a declaration is passed by name. -/
def Site.written : Site → Site
  | .default => .keyword
  | site => site

namespace Args

/-- What holds of a parameter whose value was found. -/
theorem locate_eq_some_iff : a.locate s name = some (site, v) ↔
    ∃ index, s.position? name = some index ∧
      (site = .keyword ∧ a.named.get? name = some v ∨
        site = .positional index ∧ a.named.get? name = none ∧ a.positional[index]? = some v ∨
        site = .default ∧ a.named.get? name = none ∧ a.positional[index]? = none ∧
          v = ((s.get? name).bind (·.default)).getD .null) := by
  unfold locate
  cases s.position? name with
  | none => simp
  | some index =>
    simp only [Option.some.injEq, exists_eq_left']
    generalize a.named.get? name = given
    generalize a.positional[index]? = found
    cases given <;> cases found <;> simp [eq_comm]

theorem exists_locate (h : s.contains name = true) :
    ∃ site v, a.locate s name = some (site, v) := by
  obtain ⟨index, hindex⟩ := Option.isSome_iff_exists.1 h
  unfold locate
  rw [hindex]
  dsimp only
  split
  · exact ⟨_, _, rfl⟩
  · split <;> exact ⟨_, _, rfl⟩

/-- The value of a parameter comes from its position: it was not passed by name. -/
def FromPosition (s : Schema) (a : Args) (name : String) (index : Nat) : Prop :=
  ∃ v, a.locate s name = some (.positional index, v)

/-- The value of a parameter comes from its declaration: it was not passed at all. -/
def FromDefault (s : Schema) (a : Args) (name : String) : Prop :=
  ∃ v, a.locate s name = some (.default, v)

theorem fromPosition_iff : FromPosition s a name index ↔ s.position? name = some index ∧
    a.named.contains name = false ∧ index < a.positional.length := by
  rw [Dict.contains_eq_false_iff]
  constructor
  · rintro ⟨v, hfound⟩
    obtain ⟨_, hposition, ⟨hsite, -⟩ | ⟨hsite, hnamed, hvalue⟩ | ⟨hsite, -⟩⟩ :=
      locate_eq_some_iff.1 hfound <;> cases hsite
    exact ⟨hposition, hnamed, (List.getElem?_eq_some_iff.1 hvalue).1⟩
  · rintro ⟨hposition, hnamed, hlt⟩
    exact ⟨a.positional[index], locate_eq_some_iff.2 ⟨index, hposition,
      .inr (.inl ⟨rfl, hnamed, List.getElem?_eq_getElem hlt⟩)⟩⟩

theorem fromDefault_iff : FromDefault s a name ↔ ∃ index, s.position? name = some index ∧
    a.named.contains name = false ∧ a.positional.length ≤ index := by
  rw [Dict.contains_eq_false_iff]
  constructor
  · rintro ⟨v, hfound⟩
    obtain ⟨index, hposition, ⟨hsite, -⟩ | ⟨hsite, -⟩ | ⟨-, hnamed, hvalue, -⟩⟩ :=
      locate_eq_some_iff.1 hfound
    · cases hsite
    · cases hsite
    · exact ⟨index, hposition, hnamed, List.getElem?_eq_none_iff.1 hvalue⟩
  · rintro ⟨index, hposition, hnamed, hle⟩
    exact ⟨_, locate_eq_some_iff.2 ⟨index, hposition,
      .inr (.inr ⟨rfl, hnamed, List.getElem?_eq_none hle, rfl⟩)⟩⟩

/-- **The two ways to write a value** where the old one was found: over it at its position, or by
name. -/
theorem replace_cases (h : a.locate s name = some (site, v)) (w : Value) :
    (∃ index, site = .positional index ∧ s.position? name = some index ∧
      a.named.get? name = none ∧ index < a.positional.length ∧
      a.replace site name w = { a with positional := a.positional.set index w }) ∨
    ((site = .keyword ∧ a.named.contains name = true ∨
        site = .default ∧ a.named.contains name = false) ∧
      a.replace site name w = a.setNamed name w) := by
  obtain ⟨index, hposition, ⟨rfl, hnamed⟩ | ⟨rfl, hnamed, hvalue⟩ | ⟨rfl, hnamed, -⟩⟩ :=
    locate_eq_some_iff.1 h
  · exact .inr ⟨.inl ⟨rfl, by simp [Dict.contains, hnamed]⟩, rfl⟩
  · have hlt := (List.getElem?_eq_some_iff.1 hvalue).1
    exact .inl ⟨index, rfl, hposition, hnamed, hlt, if_pos hlt⟩
  · exact .inr ⟨.inr ⟨rfl, by simp [Dict.contains, hnamed]⟩, rfl⟩

theorem length_positional_replace (a : Args) (site : Site) (name : String) (w : Value) :
    (a.replace site name w).positional.length = a.positional.length := by
  unfold replace
  split
  · split
    · exact List.length_set
    · rfl
  · rfl
  · rfl

/-- Writing a value leaves what is passed under other names. -/
theorem named_replace_of_ne (a : Args) (site : Site) (w : Value) (hne : name ≠ other) :
    (a.replace site name w).named.get? other = a.named.get? other := by
  have hset : (a.setNamed name w).named.get? other = a.named.get? other :=
    Dict.get?_insert_of_ne _ _ hne
  unfold replace
  split
  · split
    · rfl
    · exact hset
  · exact hset
  · exact hset

/-- Writing a value where the old one was found adds a name only if there was no old one. -/
theorem contains_named_replace (h : a.locate s name = some (site, v)) (w : Value) :
    (a.replace site name w).named.contains name = true ↔
      a.named.contains name = true ∨ FromDefault s a name := by
  obtain ⟨index, rfl, hposition, hnamed, hlt, heq⟩ | ⟨hsite, heq⟩ := replace_cases h w
  · rw [heq, fromDefault_iff]
    simp only [Dict.contains, hnamed, hposition, Option.some.injEq]
    constructor
    · intro hcontains
      cases hcontains
    · rintro (hcontains | ⟨_, rfl, -, hle⟩)
      · cases hcontains
      · exact absurd hlt (Nat.not_lt.2 hle)
  · rw [heq, Dict.contains, setNamed, Dict.get?_insert_self]
    refine iff_of_true rfl ?_
    obtain ⟨-, hcontains⟩ | ⟨rfl, -⟩ := hsite
    · exact .inl hcontains
    · exact .inr ⟨v, h⟩

/-- What came from a position comes from it again. -/
theorem fromPosition_replace (h : a.locate s name = some (site, v)) (w : Value) :
    FromPosition s (a.replace site name w) other index ↔ FromPosition s a other index := by
  rw [fromPosition_iff, fromPosition_iff, length_positional_replace]
  by_cases hne : name = other
  · subst hne
    obtain ⟨_, rfl, -, -, -, heq⟩ | ⟨hsite, heq⟩ := replace_cases h w
    · rw [heq]
    · -- the parameter is passed by name afterwards, and its value did not come from a position
      have hafter : (a.replace site name w).named.contains name = true := by
        rw [heq, Dict.contains, setNamed, Dict.get?_insert_self]
        rfl
      refine iff_of_false (fun hfrom => by simp [hafter] at hfrom) fun hfrom => ?_
      obtain ⟨u, hu⟩ := fromPosition_iff.2 hfrom
      cases hu.symm.trans h
      obtain ⟨hsite, -⟩ | ⟨hsite, -⟩ := hsite <;> cases hsite
  · rw [Dict.contains, Dict.contains, named_replace_of_ne a site w hne]

/-- What came from its declaration does so again, unless it was written. -/
theorem fromDefault_replace_of_ne (w : Value) (hne : name ≠ other) :
    FromDefault s (a.replace site name w) other ↔ FromDefault s a other := by
  rw [fromDefault_iff, fromDefault_iff, length_positional_replace, Dict.contains, Dict.contains,
    named_replace_of_ne a site w hne]

theorem not_fromDefault_replace (h : a.locate s name = some (site, v)) (w : Value) :
    ¬ FromDefault s (a.replace site name w) name := by
  rw [fromDefault_iff]
  rintro ⟨index, hposition, hnamed, hle⟩
  obtain ⟨_, -, hposition', -, hlt, -⟩ | ⟨-, heq⟩ := replace_cases h w
  · cases hposition.symm.trans hposition'
    rw [length_positional_replace] at hle
    exact absurd hlt (Nat.not_lt.2 hle)
  · rw [heq, Dict.contains, setNamed, Dict.get?_insert_self] at hnamed
    cases hnamed

/-- Writing a value changes a position only if the old one came from there. -/
theorem positional_replace (h : a.locate s name = some (site, v)) (w : Value) (index : Nat) :
    (a.replace site name w).positional[index]? = a.positional[index]? ∨
      FromPosition s a name index := by
  obtain ⟨index', rfl, -, -, -, heq⟩ | ⟨-, heq⟩ := replace_cases h w
  · by_cases hindex : index' = index
    · exact .inr (hindex ▸ ⟨v, h⟩)
    · rw [heq]
      exact .inl (List.getElem?_set_ne hindex)
  · rw [heq]
    exact .inl rfl

/-- **A transformation finds the value that was written,** where it was written. -/
theorem locate_replace_self (h : a.locate s name = some (site, v)) (w : Value) :
    (a.replace site name w).locate s name = some (site.written, w) := by
  rw [locate_eq_some_iff]
  obtain ⟨index, hposition, -⟩ := locate_eq_some_iff.1 h
  refine ⟨index, hposition, ?_⟩
  obtain ⟨index', rfl, hposition', hnamed, hlt, heq⟩ | ⟨hsite, heq⟩ := replace_cases h w
  · cases hposition.symm.trans hposition'
    rw [heq]
    exact .inr (.inl ⟨rfl, hnamed, List.getElem?_set_self hlt⟩)
  · rw [heq]
    refine .inl ⟨?_, Dict.get?_insert_self ..⟩
    obtain ⟨rfl, -⟩ | ⟨rfl, -⟩ := hsite <;> rfl

/-- **A transformation finds every other parameter as it was.** -/
theorem locate_replace_of_ne (h : a.locate s name = some (site, v)) (w : Value)
    (hne : name ≠ other) : (a.replace site name w).locate s other = a.locate s other := by
  unfold locate
  rw [named_replace_of_ne a site w hne]
  cases hother : s.position? other with
  | none => rfl
  | some index =>
    -- the position of another parameter is another one, so it is not the one that was written
    have hpositional : (a.replace site name w).positional[index]? = a.positional[index]? := by
      refine (positional_replace h w index).resolve_right ?_
      intro hfrom
      exact hne (Schema.position?_injective (fromPosition_iff.1 hfrom).1 hother)
    simp only [hpositional]

/-- Writing the value of a parameter leaves the marks. -/
theorem markers_replace (a : Args) (site : Site) (hname : Marker.isMarker name = false)
    (w : Value) : (a.replace site name w).markers = a.markers := by
  apply Dict.ext_get?
  intro other
  rw [markers, markers, Dict.get?_filterKeys, Dict.get?_filterKeys]
  split
  · next hother =>
    have hne : name ≠ other := by
      rintro rfl
      rw [hname] at hother
      cases hother
    exact named_replace_of_ne a site w hne
  · rfl

end Args

namespace Bound

/-- The places where a body finds a value, one after another. -/
theorem get?_of (s : Schema) (a : Args) (name : String) : (of s a).get? name =
    (if Marker.isMarker name then none else a.named.get? name).or
      ((s.position? name).bind fun index =>
        (a.positional[index]?).or ((s.get? name).bind (·.default))) := by
  dsimp only [of]
  generalize (if Marker.isMarker name then none else a.named.get? name) = given
  cases given with
  | some v => rfl
  | none =>
    cases s.position? name with
    | none => rfl
    | some index =>
      cases hindex : a.positional[index]? <;> simp [hindex]

/-- A body finds what was passed by name. -/
theorem get?_of_named (hname : Marker.isMarker name = false) (h : a.named.get? name = some v) :
    (of s a).get? name = some v := by
  rw [get?_of, hname, h]
  rfl

end Bound

/-- **A transformation is given what a body would see,** and `null` where a body would see
nothing. -/
theorem Args.eq_get?_of_locate (hname : Marker.isMarker name = false)
    (h : a.locate s name = some (site, v)) : v = ((Bound.of s a).get? name).getD .null := by
  obtain ⟨index, hposition, ⟨-, hnamed⟩ | ⟨-, hnamed, hvalue⟩ | ⟨-, hnamed, hvalue, rfl⟩⟩ :=
    Args.locate_eq_some_iff.1 h
  · rw [Bound.get?_of_named hname hnamed]
    rfl
  · simp [Bound.get?_of, hname, hnamed, hposition, hvalue]
  · simp [Bound.get?_of, hname, hnamed, hposition, hvalue]

namespace Bound

/-- **A body sees the value that was written.** -/
theorem get?_replace_self (hname : Marker.isMarker name = false)
    (h : a.locate s name = some (site, v)) (w : Value) :
    (of s (a.replace site name w)).get? name = some w := by
  obtain ⟨index, -, hposition, hnamed, hlt, heq⟩ | ⟨-, heq⟩ := Args.replace_cases h w
  · rw [heq, get?_of]
    simp [hname, hnamed, hposition, hlt]
  · rw [heq]
    exact get?_of_named hname (Dict.get?_insert_self ..)

/-- **A body sees every other parameter as it was.** -/
theorem get?_replace_of_ne (h : a.locate s name = some (site, v)) (w : Value) (hne : name ≠ other) :
    (of s (a.replace site name w)).get? other = (of s a).get? other := by
  rw [get?_of, get?_of, Args.named_replace_of_ne a site w hne]
  congr 1
  obtain ⟨index, -, hposition, -, -, heq⟩ | ⟨-, heq⟩ := Args.replace_cases h w
  · rw [heq]
    cases hother : s.position? other with
    | none => rfl
    | some index' =>
      have hindex : index ≠ index' := by
        rintro rfl
        exact hne (Schema.position?_injective hposition hother)
      simp only [Option.bind_some, List.getElem?_set_ne hindex]
  · rw [heq]
    rfl

/-- What a body sees of a declared parameter that a transformation has looked up. -/
theorem get?_of_locate (hname : Marker.isMarker name = false) {p : Parameter}
    (hp : s.get? name = some p) (h : a.locate s name = some (site, v)) :
    (of s a).get? name = (if site = .default then p.default else some v) ∧
      (site = .default → v = p.default.getD .null) := by
  obtain ⟨index, hposition, ⟨rfl, hnamed⟩ | ⟨rfl, hnamed, hvalue⟩ | ⟨rfl, hnamed, hvalue, rfl⟩⟩ :=
    Args.locate_eq_some_iff.1 h
  · exact ⟨get?_of_named hname hnamed, fun hsite => by cases hsite⟩
  · refine ⟨?_, fun hsite => by cases hsite⟩
    simp [get?_of, hnamed, hposition, hvalue]
  · simp [get?_of, hnamed, hposition, hvalue, hp]

/-- A body sees an argument that is no parameter if it was passed by name. -/
theorem get?_of_not_mem_names (hname : Marker.isMarker name = false) (h : name ∉ s.names) :
    (of s a).get? name = a.named.get? name := by
  have hposition : s.position? name = none := by
    rwa [Option.eq_none_iff_forall_ne_some, ← not_exists, ← Schema.mem_names_iff]
  simp [get?_of, hname, hposition]

end Bound

/-! ## Both look-ups -/

namespace Args

/-- A transformation finds a value for a parameter, and a body sees the same one, unless it is the
missing default of the declaration: that is `null` to a transformation and nothing to a body. -/
structure ReadAlike (s : Schema) (a : Args) (name : String) (p : Parameter) (site : Site)
    (v : Value) : Prop where
  located : a.locate s name = some (site, v)
  seen : ¬ (site = .default ∧ p.default = none) → (Bound.of s a).get? name = some v
  missing : site = .default ∧ p.default = none → v = .null ∧ (Bound.of s a).get? name = none

/-- A value that was written for a parameter is found by both, and what they find for any other name
is what they found before. -/
structure WrittenAlike (s : Schema) (a : Args) (name : String) (site : Site) (w : Value) :
    Prop where
  located : (a.replace site name w).locate s name = some (site.written, w)
  seen : (Bound.of s (a.replace site name w)).get? name = some w
  located_other : ∀ other, name ≠ other →
    (a.replace site name w).locate s other = a.locate s other
  seen_other : ∀ other, name ≠ other →
    (Bound.of s (a.replace site name w)).get? other = (Bound.of s a).get? other

/-- A transformation and a body agree on a name: on the value of a declared one, before and after it
is written; any other has no value for a transformation, and is passed by name to a body. -/
structure LookupsAgree (s : Schema) (a : Args) (name : String) : Prop where
  declared : name ∈ s.names → ∃ p site v, s.get? name = some p ∧
    a.ReadAlike s name p site v ∧ ∀ w, a.WrittenAlike s name site w
  undeclared : name ∉ s.names →
    a.locate s name = none ∧ (Bound.of s a).get? name = a.named.get? name

theorem readAlike_of_locate (hname : Marker.isMarker name = false) {p : Parameter}
    (hp : s.get? name = some p) (h : a.locate s name = some (site, v)) :
    a.ReadAlike s name p site v := by
  obtain ⟨hget, hdefault⟩ := Bound.get?_of_locate hname hp h
  refine ⟨h, fun hnot => ?_, ?_⟩
  · rw [hget]
    split
    · next hsite =>
      cases hp' : p.default with
      | none => exact absurd ⟨hsite, hp'⟩ hnot
      | some d => rw [hdefault hsite, hp', Option.getD_some]
    · rfl
  · rintro ⟨rfl, hnone⟩
    rw [hdefault rfl, hget, if_pos rfl, hnone]
    exact ⟨rfl, rfl⟩

theorem writtenAlike_of_locate (hname : Marker.isMarker name = false)
    (h : a.locate s name = some (site, v)) (w : Value) : a.WrittenAlike s name site w where
  located := locate_replace_self h w
  seen := Bound.get?_replace_self hname h w
  located_other _ := locate_replace_of_ne h w
  seen_other _ := Bound.get?_replace_of_ne h w

/-- **Both look-ups agree** on every name that is no mark, before and after a value is written. -/
theorem lookups_agree (s : Schema) (a : Args) {name : String}
    (hname : Marker.isMarker name = false) : a.LookupsAgree s name where
  declared hmem := by
    obtain ⟨p, hp⟩ := Schema.exists_get? hmem
    obtain ⟨site, v, h⟩ := exists_locate (Option.isSome_iff_exists.2 (Schema.mem_names_iff.1 hmem))
    exact ⟨p, site, v, hp, readAlike_of_locate hname hp h, writtenAlike_of_locate hname h⟩
  undeclared hmem := by
    refine ⟨?_, Bound.get?_of_not_mem_names hname hmem⟩
    rw [Option.eq_none_iff_forall_ne_some]
    rintro ⟨site, v⟩ h
    obtain ⟨index, hposition, -⟩ := locate_eq_some_iff.1 h
    exact hmem (Schema.mem_names_iff.2 ⟨index, hposition⟩)

/-- A parameter declared twice, passed by position. What the second declaration has for a default
and what is passed for it count for nothing, and a value is written where the first one was. -/
theorem lookups_agree_twice :
    let s : Schema := { params := [{ name := "x" }, { name := "x", default := some (.int 7) }] }
    let a : Args := .ofPositional [.int 1, .int 2]
    let b : Args := .ofPositional [.int 5, .int 2]
    Marker.isMarker "x" = false ∧ a.ReadAlike s "x" { name := "x" } (.positional 0) (.int 1) ∧
      a.replace (.positional 0) "x" (.int 5) = b ∧ a.WrittenAlike s "x" (.positional 0) (.int 5) ∧
      (Bound.of s b).get? "x" = some (.int 5) := by
  intro s a b
  have hmark : Marker.isMarker "x" = false := by decide
  obtain ⟨p, site, v, hp, hread, hwritten⟩ := (lookups_agree s a hmark).declared (by decide)
  cases hp
  cases hread.located
  exact ⟨hmark, hread, rfl, hwritten (.int 5), (hwritten (.int 5)).seen⟩

end Args
end TaskStack
