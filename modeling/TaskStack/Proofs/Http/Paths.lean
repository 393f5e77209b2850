import Mathlib.Data.List.DropRight
import TaskStack.Proofs.Http.Percent

/-!
# Segments of an address

An address is cleaned of blanks, cut at its query and its fragment, and parted at its slashes. Going
through the parts leaves each of them as a segment, but for dots: so a segment is empty, or it is
the percent form of a part that has no slash and is no dot. The percent form of a part has no
delimiter in it, so that the path with its segments is parted into them again.

* `pathPart`: what of a text behind a path still belongs to the path, and when it is all of it
  (`pathPart_eq_self_iff`).
* `mem_walk`, `exists_getLast?_walk`: the segments that are left, and the last of them.
* `stays_iff`: the dots, among texts without triples.
-/

namespace TaskStack.Http

/-! ## Characters of a segment -/

theorem hexUpper_not_delimiter (n : Nat) : hexUpper n ∉ ['/', '?', '#'] := by
  have hall : ∀ k : Fin 16, (Nat.digitChar k.val).toUpper ∉ ['/', '?', '#'] := by decide
  exact hall ⟨n % 16, Nat.mod_lt _ (by decide)⟩

theorem percentChar_not_delimiter {c d : Char} (h : d ∈ percentChar c) : d ∉ ['/', '?', '#'] := by
  obtain ⟨b, -, hd⟩ := List.mem_flatMap.1 h
  rw [percent, List.mem_cons, List.mem_cons, List.mem_singleton] at hd
  rcases hd with rfl | rfl | rfl
  · decide
  · exact hexUpper_not_delimiter _
  · exact hexUpper_not_delimiter _

/-- The percent form of a part without slashes has no delimiters. -/
theorem not_delimiter_of_mem {cs : List Char} (hslash : '/' ∉ cs) {d : Char}
    (h : d ∈ percentEncode pathReserved cs) : d ∉ ['/', '?', '#'] := by
  induction cs with
  | nil => cases h
  | cons c cs ih =>
    obtain ⟨hc, hcs⟩ := List.ne_and_not_mem_of_not_mem_cons hslash
    rw [percentEncode_cons] at h
    obtain h | h := List.mem_append.1 h
    · obtain hchar | hchar := inPath_cases c
      · exact percentChar_not_delimiter (hchar ▸ h)
      · rw [hchar, List.mem_singleton] at h
        subst h
        intro hd
        rw [List.mem_cons, List.mem_cons, List.mem_singleton] at hd
        rcases hd with rfl | rfl | rfl
        · exact hc rfl
        -- the other two are written as triples
        · exact absurd hchar (by decide)
        · exact absurd hchar (by decide)
    · exact ih hcs h

theorem percentEncode_ne_nil {cs : List Char} (h : cs ≠ []) :
    percentEncode pathReserved cs ≠ [] := by
  obtain ⟨c, cs, rfl⟩ := List.exists_cons_of_ne_nil h
  rw [percentEncode_cons]
  refine List.append_ne_nil_of_left_ne_nil ?_ _
  obtain hchar | hchar := inPath_cases c
  · obtain ⟨rest, hrest⟩ := exists_percentChar c
    rw [hchar, hrest]
    exact List.cons_ne_nil _ _
  · rw [hchar]
    exact List.cons_ne_nil _ _

/-! ## Letter case -/

theorem toNat_toLower (c : Char) :
    c.toLower.toNat = if 65 ≤ c.toNat ∧ c.toNat ≤ 90 then c.toNat + 32 else c.toNat := by
  have hupper : c.val ≥ 'A'.val ∧ c.val ≤ 'Z'.val ↔ 65 ≤ c.toNat ∧ c.toNat ≤ 90 := Iff.rfl
  unfold Char.toLower
  split
  · next h =>
    have h' := hupper.1 h
    rw [if_pos h']
    change (c.val + 32).toNat = c.val.toNat + 32
    have : c.val.toNat ≤ 90 := h'.2
    rw [UInt32.toNat_add]
    exact Nat.mod_eq_of_lt (by simp; omega)
  · next h => rw [if_neg (mt hupper.2 h)]

theorem isSome_of_toLower {c : Char} (h : (hexValue? c.toLower).isSome = true) :
    (hexValue? c).isSome = true := by
  rw [isSome_hexValue?_iff, toNat_toLower] at h
  rw [isSome_hexValue?_iff]
  split at h <;> omega

/-- A character that is no small letter comes from itself alone. -/
theorem eq_of_toLower {c d : Char} (h : c.toLower = d) (hd : d.toNat < 97) : c = d := by
  have hc := toNat_toLower c
  rw [h] at hc
  rw [← Char.toNat_inj]
  split at hc <;> omega

/-- Letter case does not matter to a triple. -/
theorem triple_of_map_toLower {cs : List Char} (h : Triple (cs.map Char.toLower)) : Triple cs := by
  obtain ⟨a, b, hstands, ha, hb⟩ := h
  obtain ⟨front, hfront, hx⟩ := List.infix_map_iff.1 hstands
  obtain ⟨x, _, rfl, hpercent, hy⟩ := List.map_eq_cons_iff.1 hx.symm
  obtain ⟨y, _, rfl, rfl, hz⟩ := List.map_eq_cons_iff.1 hy
  obtain ⟨z, _, rfl, rfl, hrest⟩ := List.map_eq_cons_iff.1 hz
  cases List.map_eq_nil_iff.1 hrest
  cases eq_of_toLower hpercent (by decide)
  exact ⟨y, z, hfront, isSome_of_toLower ha, isSome_of_toLower hb⟩

theorem map_toLower_eq_iff {s t : List Char} (ht : ∀ c ∈ t, c.toNat < 65) :
    s.map Char.toLower = t ↔ s = t := by
  induction s generalizing t with
  | nil => exact Iff.rfl
  | cons c s ih =>
    cases t with
    | nil => simp
    | cons d t =>
      obtain ⟨hd, ht⟩ := List.forall_mem_cons.1 ht
      have hc : c.toLower = d ↔ c = d := by
        refine ⟨fun h => eq_of_toLower h (by omega), ?_⟩
        rintro rfl
        rw [← Char.toNat_inj, toNat_toLower, if_neg (by omega)]
      rw [List.map_cons, List.cons_eq_cons, List.cons_eq_cons, hc, ih ht]

namespace Url

/-! ## What belongs to the path -/

/-- What of a text that stands behind a path still belongs to the path. -/
def pathPart (cs : List Char) : List Char :=
  ((clean cs).takeWhile (· != '#')).takeWhile (· != '?')

/-- Characters that end a path or are taken out of it. -/
def pathMarks : List Char := ['#', '?', '\t', '\n', '\r']

theorem clean_eq (cs : List Char) : clean cs = (cs.rdropWhile fun c => c.toNat ≤ 0x20).filter
    fun c => c != '\t' && c != '\n' && c != '\r' := rfl

theorem pathPart_sublist_clean (cs : List Char) : (pathPart cs).Sublist (clean cs) :=
  (List.takeWhile_sublist _).trans (List.takeWhile_sublist _)

theorem clean_sublist (cs : List Char) : (clean cs).Sublist cs :=
  List.filter_sublist.trans (List.rdropWhile_prefix _ _).sublist

theorem pathPart_sublist (cs : List Char) : (pathPart cs).Sublist cs :=
  (pathPart_sublist_clean cs).trans (clean_sublist cs)

theorem clean_eq_self_iff {cs : List Char} : clean cs = cs ↔
    (∀ h : cs ≠ [], 0x20 < (cs.getLast h).toNat) ∧ ∀ c ∈ cs, c ∉ ['\t', '\n', '\r'] := by
  have hblank : cs.rdropWhile (fun c => c.toNat ≤ 0x20) = cs ↔
      ∀ h : cs ≠ [], 0x20 < (cs.getLast h).toNat := by
    rw [List.rdropWhile_eq_self_iff]
    simp only [decide_eq_true_eq, Nat.not_le]
  have hline : cs.filter (fun c => c != '\t' && c != '\n' && c != '\r') = cs ↔
      ∀ c ∈ cs, c ∉ ['\t', '\n', '\r'] := by
    rw [List.filter_eq_self]
    simp [and_assoc]
  rw [← hblank, ← hline]
  constructor
  · intro h
    have hrest : cs.rdropWhile (fun c => c.toNat ≤ 0x20) = cs := by
      refine (List.rdropWhile_prefix _ _).sublist.antisymm ?_
      have hsub : (clean cs).Sublist (cs.rdropWhile fun c => c.toNat ≤ 0x20) :=
        List.filter_sublist
      rwa [h] at hsub
    rw [clean_eq, hrest] at h
    exact ⟨hrest, h⟩
  · rintro ⟨hrest, hfilter⟩
    rw [clean_eq, hrest, hfilter]

/-- A text belongs to a path as a whole if it has no marks and no blank at its end. -/
theorem pathPart_eq_self_iff {cs : List Char} : pathPart cs = cs ↔
    (∀ h : cs ≠ [], 0x20 < (cs.getLast h).toNat) ∧ ∀ c ∈ cs, c ∉ pathMarks := by
  have hpath : pathPart cs = cs ↔ clean cs = cs ∧ ∀ c ∈ cs, c ∉ ['#', '?'] := by
    constructor
    · intro h
      have hclean : clean cs = cs := by
        refine (clean_sublist cs).antisymm ?_
        have hsub := pathPart_sublist_clean cs
        rwa [h] at hsub
      refine ⟨hclean, fun c hc => ?_⟩
      rw [← h] at hc
      have hquery : c ≠ '?' := by simpa using List.mem_takeWhile_imp hc
      have hfragment : c ≠ '#' := by
        simpa using List.mem_takeWhile_imp ((List.takeWhile_sublist _).subset hc)
      simp [hquery, hfragment]
    · rintro ⟨hclean, hmarks⟩
      simp only [List.mem_cons, List.not_mem_nil, or_false, not_or] at hmarks
      have hfragment : cs.takeWhile (· != '#') = cs :=
        List.takeWhile_eq_self_iff.2 fun c hc => bne_iff_ne.2 (hmarks c hc).1
      have hquery : cs.takeWhile (· != '?') = cs :=
        List.takeWhile_eq_self_iff.2 fun c hc => bne_iff_ne.2 (hmarks c hc).2
      rw [pathPart, hclean, hfragment, hquery]
  rw [hpath, clean_eq_self_iff, and_assoc, ← forall₂_and]
  simp only [pathMarks, List.mem_cons, List.not_mem_nil, or_false, not_or]
  grind

/-- What belongs to the path behind a path. -/
theorem pathPart_append {front : List Char} (h : pathPart front = front) (cs : List Char) :
    pathPart (front ++ cs) = front ++ pathPart cs := by
  obtain ⟨hlast, hmarks⟩ := pathPart_eq_self_iff.1 h
  simp only [pathMarks, List.mem_cons, List.not_mem_nil, or_false, not_or] at hmarks
  have hblank (cs : List Char) : (front ++ cs).rdropWhile (fun c => c.toNat ≤ 0x20) =
      front ++ cs.rdropWhile fun c => c.toNat ≤ 0x20 := by
    induction cs using List.reverseRecOn with
    | nil =>
      rw [List.append_nil, List.rdropWhile_nil, List.append_nil, List.rdropWhile_eq_self_iff]
      simpa using hlast
    | append_singleton cs c ih =>
      rw [← List.append_assoc, List.rdropWhile_concat, List.rdropWhile_concat, ih]
      split
      · rfl
      · exact List.append_assoc ..
  have hclean : clean (front ++ cs) = front ++ clean cs := by
    rw [clean_eq, hblank, List.filter_append, ← clean_eq, List.filter_eq_self.2]
    intro c hc
    have := hmarks c hc
    simp [this]
  rw [pathPart, hclean, List.takeWhile_append_of_pos, List.takeWhile_append_of_pos, pathPart]
  · exact fun c hc => bne_iff_ne.2 (hmarks c hc).2.1
  · exact fun c hc => bne_iff_ne.2 (hmarks c hc).1

/-! ## Segments -/

theorem splitSegments_eq (cs : List Char) : splitSegments cs = cs.splitOnP isSlash := by
  induction cs with
  | nil => rfl
  | cons c cs ih =>
    obtain ⟨s, more, hcs⟩ := List.exists_cons_of_ne_nil (List.splitOnP_ne_nil isSlash cs)
    rw [splitSegments, List.splitOnP_cons_eq_if_modifyHead, ih, hcs]
    rfl

/-- A segment is a part of the text, without slashes. -/
theorem sublist_of_mem {cs s : List Char} (hs : s ∈ splitSegments cs) :
    s.Sublist cs ∧ ∀ c ∈ s, isSlash c = false := by
  induction cs generalizing s with
  | nil =>
    rw [List.mem_singleton.1 hs]
    exact ⟨List.nil_sublist _, fun _ hc => absurd hc List.not_mem_nil⟩
  | cons c cs ih =>
    cases hc : isSlash c with
    | true =>
      rw [splitSegments, if_pos hc] at hs
      obtain rfl | hs := List.mem_cons.1 hs
      · exact ⟨List.nil_sublist _, fun _ hc => absurd hc List.not_mem_nil⟩
      · exact ⟨(ih hs).1.cons c, (ih hs).2⟩
    | false =>
      rw [splitSegments, if_neg (by simp [hc])] at hs
      split at hs
      · rw [List.mem_singleton.1 hs]
        exact ⟨(List.nil_sublist _).cons_cons c, List.forall_mem_singleton.2 hc⟩
      · next s' more hcs =>
        obtain rfl | hs := List.mem_cons.1 hs
        · obtain ⟨hsub, hslash⟩ := ih (hcs ▸ List.mem_cons_self)
          exact ⟨hsub.cons_cons c, List.forall_mem_cons.2 ⟨hc, hslash⟩⟩
        · obtain ⟨hsub, hslash⟩ := ih (hcs ▸ List.mem_cons_of_mem _ hs)
          exact ⟨hsub.cons c, hslash⟩

/-! ## Going through the segments -/

/-- A part that becomes a segment: it is no dot. -/
def Stays (s : List Char) : Prop := isDot s = false ∧ isDoubleDot s = false

/-- Without triples only the dots themselves are dots. -/
theorem stays_iff {s : List Char} (h : ¬ Triple s) :
    Stays s ↔ s ≠ ".".toList ∧ s ≠ "..".toList := by
  have htriple (front rest : List Char) :
      s.map Char.toLower ≠ front ++ ("%2e".toList ++ rest) := by
    intro hs
    refine h (triple_of_map_toLower ?_)
    rw [hs, ← List.append_assoc]
    exact ⟨'2', 'e', ⟨front, rest, rfl⟩, rfl, rfl⟩
  have hdot : isDot s = true ↔ s = ".".toList := by
    rw [← map_toLower_eq_iff (t := ".".toList) (by simp), isDot, List.contains_iff_mem, dots,
      List.mem_cons, List.mem_singleton]
    exact or_iff_left (htriple [] [])
  have hdouble : isDoubleDot s = true ↔ s = "..".toList := by
    rw [← map_toLower_eq_iff (t := "..".toList) (by simp)]
    have h1 : s.map Char.toLower ≠ ".".toList ++ "%2e".toList := by
      have := htriple ".".toList []
      rwa [List.append_nil] at this
    have h2 : s.map Char.toLower ≠ "%2e".toList ++ ".".toList := htriple [] ".".toList
    have h3 : s.map Char.toLower ≠ "%2e".toList ++ "%2e".toList :=
      htriple [] "%2e".toList
    simp only [isDoubleDot, dots, List.any_cons, List.any_nil, Bool.or_false, Bool.or_eq_true,
      decide_eq_true_eq, h1, h2, h3, or_false]
    rfl
  rw [Stays, ← Bool.not_eq_true, ← Bool.not_eq_true, hdot, hdouble]

theorem walk_of_stays {s : List Char} (h : Stays s) (done : List (List Char)) :
    walk done [s] = done.reverse ++ [percentEncode pathReserved s] := by
  rw [walk, h.1, h.2]
  simp

theorem mem_of_mem_up {done : List (List Char)} {x : List Char} (h : x ∈ up done) : x ∈ done := by
  unfold up at h
  split at h
  · split at h
    · exact h
    · exact List.mem_cons_of_mem _ h
  · exact h

/-- What is gone through becomes segments, and nothing else does. -/
theorem mem_walk {done ss : List (List Char)} {x : List Char} (h : x ∈ walk done ss) :
    x ∈ done ∨ x = [] ∨ ∃ s ∈ ss, x = percentEncode pathReserved s := by
  fun_induction walk done ss with
  | case1 done => exact .inl (List.mem_reverse.1 h)
  | case2 done s hup =>
    obtain rfl | h := List.mem_cons.1 (List.mem_reverse.1 h)
    · exact .inr (.inl rfl)
    · exact .inl (mem_of_mem_up h)
  | case3 done s hup hdot =>
    obtain rfl | h := List.mem_cons.1 (List.mem_reverse.1 h)
    · exact .inr (.inl rfl)
    · exact .inl h
  | case4 done s hup hdot =>
    obtain rfl | h := List.mem_cons.1 (List.mem_reverse.1 h)
    · exact .inr (.inr ⟨s, List.mem_cons_self, rfl⟩)
    · exact .inl h
  | case5 done s rest hrest hup ih =>
    obtain h | h | ⟨s', hs', h⟩ := ih h
    · exact .inl (mem_of_mem_up h)
    · exact .inr (.inl h)
    · exact .inr (.inr ⟨s', List.mem_cons_of_mem _ hs', h⟩)
  | case6 done s rest hrest hup hdot ih =>
    obtain h | h | ⟨s', hs', h⟩ := ih h
    · exact .inl h
    · exact .inr (.inl h)
    · exact .inr (.inr ⟨s', List.mem_cons_of_mem _ hs', h⟩)
  | case7 done s rest hrest hup hdot ih =>
    obtain h | h | ⟨s', hs', h⟩ := ih h
    · obtain rfl | h := List.mem_cons.1 h
      · exact .inr (.inr ⟨s, List.mem_cons_self, rfl⟩)
      · exact .inl h
    · exact .inr (.inl h)
    · exact .inr (.inr ⟨s', List.mem_cons_of_mem _ hs', h⟩)

/-- The last segment is empty, or it is a part that stays. -/
theorem exists_getLast?_walk (done : List (List Char)) {ss : List (List Char)} (h : ss ≠ []) :
    ∃ last, (walk done ss).getLast? = some last ∧
      (last = [] ∨ ∃ s ∈ ss, Stays s ∧ last = percentEncode pathReserved s) := by
  fun_induction walk done ss with
  | case1 done => exact absurd rfl h
  | case2 done s hup => exact ⟨[], by simp, .inl rfl⟩
  | case3 done s hup hdot => exact ⟨[], by simp, .inl rfl⟩
  | case4 done s hup hdot =>
    refine ⟨_, by rw [List.getLast?_reverse]; rfl, .inr ⟨s, List.mem_cons_self, ?_, rfl⟩⟩
    exact ⟨Bool.eq_false_iff.2 hdot, Bool.eq_false_iff.2 hup⟩
  | case5 done s rest hrest hup ih | case6 done s rest hrest hup hdot ih
  | case7 done s rest hrest hup hdot ih =>
    obtain ⟨last, hlast, hempty | ⟨s', hs', hstays⟩⟩ := ih hrest
    · exact ⟨last, hlast, .inl hempty⟩
    · exact ⟨last, hlast, .inr ⟨s', List.mem_cons_of_mem _ hs', hstays⟩⟩

/-! ## The path of an address -/

/-- A path without the slash in front. -/
def behindSlash : List Char → List Char
  | c :: rest => if isSlash c then rest else c :: rest
  | [] => []

theorem segments_ofText (text : String) :
    (ofText text).segments = walk [] (splitSegments (behindSlash (pathPart text.toList))) := by
  change walk [] (match pathPart text.toList with
    | c :: rest => splitSegments (if isSlash c then rest else c :: rest)
    | [] => [[]]) = _
  cases pathPart text.toList <;> rfl

theorem segments_ofText_ne_nil (text : String) : (ofText text).segments ≠ [] := by
  rw [segments_ofText, splitSegments_eq]
  obtain ⟨last, hlast, -⟩ := exists_getLast?_walk [] (List.splitOnP_ne_nil isSlash _)
  exact List.ne_nil_of_mem (List.mem_of_getLast? hlast)

/-- No segment of an address has a delimiter. -/
theorem not_delimiter_of_mem_segments {text : String} {x : List Char}
    (hx : x ∈ (ofText text).segments) : ∀ c ∈ x, c ∉ ['/', '?', '#'] := by
  rw [segments_ofText] at hx
  obtain h | rfl | ⟨s, hs, rfl⟩ := mem_walk hx
  · cases h
  · exact fun _ hc => absurd hc List.not_mem_nil
  · refine fun c hc => not_delimiter_of_mem (fun hslash => ?_) hc
    have := (sublist_of_mem hs).2 _ hslash
    revert this
    decide

end Url
end TaskStack.Http
