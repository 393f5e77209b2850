import TaskStack.Proofs.Time.Calendar

/-!
# Points in time are read back

The text of a point in time has every number in a place of its own width, but for the year, which
ends at a dash, and the fraction, which ends at the letter of universal time. A number in its place
is read back whatever follows it, so the text is read from its front, number by number.

* `number_padded`, `number_length`: numbers in places of their width, and of any width.
* `year_yearText`, `fraction_fractionText`: what ends at a mark.
* `ofText?_text`: the whole text.
-/

namespace TaskStack.Instant

/-! ## Numbers -/

theorem digitsOf_eq_ofDigitChars (cs : List Char) : digitsOf cs = Nat.ofDigitChars 10 cs 0 := by
  simp only [digitsOf, Nat.ofDigitChars, Nat.mul_comm]

section

variable {width n : Nat}

theorem toList_padded (width n : Nat) : (padded width n).toList =
    List.replicate (width - (Nat.toDigits 10 n).length) '0' ++ Nat.toDigits 10 n :=
  String.toList_ofList

theorem digitsOf_padded (width n : Nat) : digitsOf (padded width n).toList = n := by
  rw [digitsOf_eq_ofDigitChars, toList_padded, Nat.ofDigitChars_append,
    Nat.ofDigitChars_replicate_zero, Nat.mul_zero, Nat.ofDigitChars_ten_toDigits]

theorem isDigit_of_mem_padded {c : Char} (h : c ∈ (padded width n).toList) :
    c.isDigit = true := by
  rw [toList_padded] at h
  obtain h | h := List.mem_append.1 h
  · rw [List.eq_of_mem_replicate h]
    rfl
  · exact Nat.isDigit_of_mem_toDigits (by decide) (by decide) h

theorem padded_ne_nil (width n : Nat) : (padded width n).toList ≠ [] := by
  rw [toList_padded]
  exact List.append_ne_nil_of_right_ne_nil _ Nat.toDigits_ne_nil

theorem length_padded (hwidth : 0 < width) (hn : n < 10 ^ width) :
    (padded width n).toList.length = width := by
  have hlength := (Nat.length_toDigits_le_iff (by decide) hwidth).2 hn
  rw [toList_padded, List.length_append, List.length_replicate]
  omega

theorem takeWhile_padded (width n : Nat) {rest : List Char}
    (hrest : rest.takeWhile Char.isDigit = []) :
    ((padded width n).toList ++ rest).takeWhile Char.isDigit = (padded width n).toList := by
  rw [List.takeWhile_append_of_pos fun c hc => isDigit_of_mem_padded hc, hrest, List.append_nil]

/-- A number in a place of its width is read back, whatever follows. -/
theorem number_padded (hwidth : 0 < width) (hn : n < 10 ^ width) (rest : List Char) :
    number width ((padded width n).toList ++ rest) = some (n, rest) := by
  have hlength := length_padded hwidth hn
  have htake : ((padded width n).toList ++ rest).take width = (padded width n).toList :=
    List.take_left' hlength
  have hdigits : ((padded width n).toList ++ []).takeWhile Char.isDigit =
      (padded width n).toList := takeWhile_padded width n rfl
  rw [List.append_nil] at hdigits
  have hne : (padded width n).toList.isEmpty = false := by
    simpa using padded_ne_nil width n
  simp only [number, htake, hdigits, hne, Bool.false_eq_true, if_false, digitsOf_padded,
    List.drop_left]

/-- A number of any width is read back if no digit follows. -/
theorem number_length (width n : Nat) {rest : List Char}
    (hrest : rest.takeWhile Char.isDigit = []) :
    number ((padded width n).toList ++ rest).length ((padded width n).toList ++ rest) =
      some (n, rest) := by
  have hne : (padded width n).toList.isEmpty = false := by
    simpa using padded_ne_nil width n
  simp only [number, List.take_length, takeWhile_padded width n hrest, hne, Bool.false_eq_true,
    if_false, digitsOf_padded, List.drop_left]

theorem isBlank_of_isDigit {c : Char} (h : c.isDigit = true) : Text.isBlank c = false := by
  have hlow : 48 ≤ c.toNat := (Char.isDigit_iff_toNat.1 h).1
  have hhigh : c.toNat ≤ 57 := (Char.isDigit_iff_toNat.1 h).2
  rw [Text.isBlank]
  simp only [Bool.or_eq_false_iff, Bool.and_eq_false_iff, decide_eq_false_iff_not,
    beq_eq_false_iff_ne]
  omega

theorem trimStart_padded (width n : Nat) (rest : List Char) :
    Text.trimStart ((padded width n).toList ++ rest) = (padded width n).toList ++ rest := by
  cases hcs : (padded width n).toList with
  | nil => exact absurd hcs (padded_ne_nil width n)
  | cons c cs =>
    have hmem : c ∈ (padded width n).toList := hcs ▸ List.mem_cons_self
    have hdigit : c.isDigit = true := isDigit_of_mem_padded hmem
    rw [List.cons_append, Text.trimStart, List.dropWhile_cons_of_neg]
    simp [isBlank_of_isDigit hdigit]

theorem part_padded (hn : n < 100) (rest : List Char) :
    part ((padded 2 n).toList ++ rest) = some (n, rest) := by
  rw [part, trimStart_padded, number_padded (by decide) hn]

end

/-! ## Years and fractions -/

theorem toList_dash : "-".toList = ['-'] := by decide
theorem toList_plus : "+".toList = ['+'] := by decide
theorem toList_point : ".".toList = ['.'] := by decide
theorem toList_colon : ":".toList = [':'] := by decide

theorem year_of_isDigit {c : Char} {cs : List Char} (h : c.isDigit = true) :
    year (c :: cs) = (number 4 (c :: cs)).map fun r => ((r.1 : Int), r.2) := by
  have htrim : Text.trimStart (c :: cs) = c :: cs := by
    rw [Text.trimStart, List.dropWhile_cons_of_neg]
    simp [isBlank_of_isDigit h]
  rw [year, htrim]
  split
  · next heq =>
    cases heq
    cases h
  · next heq =>
    cases heq
    cases h
  · rfl

theorem year_minus (cs : List Char) :
    year ('-' :: cs) = (number cs.length cs).map fun r => (-(r.1 : Int), r.2) := rfl

theorem year_plus (cs : List Char) :
    year ('+' :: cs) = (number cs.length cs).map fun r => ((r.1 : Int), r.2) := rfl

theorem year_yearText (y : Int) (rest : List Char) :
    year ((yearText y).toList ++ '-' :: rest) = some (y, '-' :: rest) := by
  have hrest : ('-' :: rest).takeWhile Char.isDigit = [] := rfl
  have hsigned := number_length 4 y.natAbs hrest
  unfold yearText
  split
  · next hy =>
    have hnumber : number 4 ((padded 4 y.toNat).toList ++ '-' :: rest) =
        some (y.toNat, '-' :: rest) := number_padded (by decide) (by omega) _
    cases hcs : (padded 4 y.toNat).toList with
    | nil => exact absurd hcs (padded_ne_nil 4 y.toNat)
    | cons c cs =>
      have hmem : c ∈ (padded 4 y.toNat).toList := hcs ▸ List.mem_cons_self
      have hdigit : c.isDigit = true := isDigit_of_mem_padded hmem
      rw [hcs] at hnumber
      rw [List.cons_append, year_of_isDigit hdigit, ← List.cons_append, hnumber, Option.map_some,
        Int.toNat_of_nonneg hy.1]
  · next hy =>
    split
    · next hneg =>
      rw [String.toList_append, toList_dash, List.append_assoc, List.singleton_append, year_minus,
        hsigned, Option.map_some]
      exact congrArg some (Prod.ext (by omega) rfl)
    · next hneg =>
      rw [String.toList_append, toList_plus, List.append_assoc, List.singleton_append, year_plus,
        hsigned, Option.map_some]
      exact congrArg some (Prod.ext (by omega) rfl)

theorem fraction_padded {width k : Nat} (hwidth : 0 < width) (hle : width ≤ 9)
    (hk : k < 10 ^ width) (rest : List Char) :
    fraction ('.' :: ((padded width k).toList ++ 'Z' :: rest)) =
      some (k * 10 ^ (9 - width), 'Z' :: rest) := by
  have hlength := length_padded hwidth hk
  have hne : (padded width k).toList.isEmpty = false := by
    simpa using padded_ne_nil width k
  have hafter : (('Z' :: rest).take (9 - width)).takeWhile Char.isDigit = [] := by
    cases 9 - width <;> rfl
  have htake : (((padded width k).toList ++ 'Z' :: rest).take 9).takeWhile Char.isDigit =
      (padded width k).toList := by
    rw [List.take_append, hlength, List.take_of_length_le (by omega), takeWhile_padded _ _ hafter]
  have hdrop : ((padded width k).toList ++ 'Z' :: rest).dropWhile Char.isDigit = 'Z' :: rest := by
    rw [List.dropWhile_append_of_pos fun c hc => isDigit_of_mem_padded hc]
    rfl
  simp only [fraction, htake, hne, Bool.false_eq_true, if_false, digitsOf_padded, hlength, hdrop,
    Nat.pow_eq]

theorem fraction_fractionText {nanos : Nat} (h : nanos < 1000000000) (rest : List Char) :
    fraction ((fractionText nanos).toList ++ 'Z' :: rest) = some (nanos, 'Z' :: rest) := by
  have hdot (width k : Nat) (hwidth : 0 < width) (hle : width ≤ 9) (hk : k < 10 ^ width)
      (hsame : k * 10 ^ (9 - width) = nanos) :
      fraction (("." ++ padded width k).toList ++ 'Z' :: rest) = some (nanos, 'Z' :: rest) := by
    rw [String.toList_append, toList_point, List.append_assoc, List.singleton_append, ← hsame]
    exact fraction_padded hwidth hle hk rest
  unfold fractionText
  split
  · next hzero =>
    subst hzero
    rfl
  split
  · exact hdot 3 _ (by decide) (by decide) (by omega) (by omega)
  split
  · exact hdot 6 _ (by decide) (by decide) (by omega) (by omega)
  · exact hdot 9 _ (by decide) (by decide) (by omega) (by omega)

/-! ## Whole texts -/

/-- A point in time as a clock tells it: within the years of the calendar, and with a second or more
of fraction only in a leap second, which comes last in its minute. -/
structure Valid (t : Instant) : Prop where
  year : firstYear ≤ (Date.ofDays (t.seconds / 86400)).year ∧
    (Date.ofDays (t.seconds / 86400)).year ≤ lastYear
  nanos : t.nanos < 1000000000 ∨ t.nanos < 2000000000 ∧ t.seconds % 60 = 59

theorem toList_text (t : Instant) : t.text.toList =
    (yearText (Date.ofDays (t.seconds / 86400)).year).toList ++ '-' ::
      ((padded 2 (Date.ofDays (t.seconds / 86400)).month).toList ++ '-' ::
        ((padded 2 (Date.ofDays (t.seconds / 86400)).day).toList ++ 'T' ::
          ((padded 2 ((t.seconds % 86400).toNat / 3600)).toList ++ ':' ::
            ((padded 2 ((t.seconds % 86400).toNat / 60 % 60)).toList ++ ':' ::
              ((padded 2 ((t.seconds % 86400).toNat % 60 + t.nanos / 1000000000)).toList ++
                ((fractionText (t.nanos % 1000000000)).toList ++ ['Z'])))))) := by
  have ht : "T".toList = ['T'] := by decide
  have hz : "Z".toList = ['Z'] := by decide
  simp only [text, dateText, timeText, String.toList_append, List.append_assoc, toList_dash,
    toList_colon, ht, hz, List.cons_append, List.nil_append]

theorem mark_cons {c : Char} (h : Text.isBlank c = false) (rest : List Char) :
    mark c (c :: rest) = some ((), rest) := by
  rw [mark, Text.trimStart, List.dropWhile_cons_of_neg (by simp [h])]
  simp

theorem mark_dash (rest : List Char) : mark '-' ('-' :: rest) = some ((), rest) :=
  mark_cons (by decide) rest

theorem mark_colon (rest : List Char) : mark ':' (':' :: rest) = some ((), rest) :=
  mark_cons (by decide) rest

/-- **A point in time is read back from its text.** -/
theorem ofText?_text {t : Instant} (h : t.Valid) : ofText? t.text = some t := by
  obtain ⟨seconds, nanos⟩ := t
  obtain ⟨hyear, hnanos⟩ := h
  simp only at hyear hnanos
  have hdays := Date.toDays_ofDays (seconds / 86400)
  have hvalid := Date.valid_ofDays hyear
  obtain ⟨-, hmonth, -, hday⟩ := Date.ofDays_bounds (seconds / 86400)
  have hm : (Date.ofDays (seconds / 86400)).month < 100 := Nat.lt_of_le_of_lt hmonth (by decide)
  have hd : (Date.ofDays (seconds / 86400)).day < 100 :=
    Nat.lt_of_le_of_lt (hday.trans (Date.daysInMonth_le _ _)) (by decide)
  have hhour : (seconds % 86400).toNat / 3600 < 24 := by omega
  have hminute : (seconds % 86400).toNat / 60 % 60 < 60 := by omega
  have hsecond : (seconds % 86400).toNat % 60 + nanos / 1000000000 ≤ 60 := by omega
  have hfraction := fraction_fractionText (Nat.mod_lt nanos (by decide : 0 < 1000000000)) []
  have hoffset : offset (Text.trimStart ['Z']) = some (0, []) := rfl
  have hend : (Text.trimStart []).isEmpty = true := rfl
  simp only [ofText?, toList_text, year_yearText, mark_dash, mark_colon, part_padded hm,
    part_padded hd, part_padded (Nat.lt_trans hhour (by decide)),
    part_padded (Nat.lt_trans hminute (by decide)),
    part_padded (Nat.lt_of_le_of_lt hsecond (by decide)), hfraction, hoffset, hend, bind,
    Option.bind]
  generalize hdate : Date.ofDays (seconds / 86400) = date at *
  have hback : date.toDays * 86400 + (((seconds % 86400).toNat / 3600 * 3600 +
      (seconds % 86400).toNat / 60 % 60 * 60 +
      min ((seconds % 86400).toNat % 60 + nanos / 1000000000) 59 : Nat) : Int) - 0 = seconds := by
    omega
  have hleap : (nanos % 1000000000 +
      if (seconds % 86400).toNat % 60 + nanos / 1000000000 = 60 then 1000000000 else 0) = nanos := by
    split <;> omega
  rw [hback, hleap, hdate]
  simp [hvalid, hyear, hhour, hminute, hsecond]

end TaskStack.Instant
