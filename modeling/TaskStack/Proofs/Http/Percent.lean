import TaskStack.Http.Url
import TaskStack.Proofs.Text.ByteOrder

/-!
# What a segment stands for

A text that is put into a path is written with triples for the characters that cannot stand there,
but a percent sign is left as it is. So what the segment stands for is the text again, unless the
text has a triple of its own: that one is decoded as well, to a single byte for three. As decoding
makes nothing longer, a text with a triple of its own is not what its segment stands for.

* `percentBytes_percentEncode`: a text without triples is read back.
* `length_percentBytes_le`, `length_percentBytes_lt`: the bytes of a segment are no more than those
  of the text, and fewer if it has a triple.
* `decode?_percentEncode`, `eq_of_decode?`: which segments are decoded to a text.
-/

namespace TaskStack.Http

open Text

/-- The bytes of characters in UTF-8. -/
def utf8 (cs : List Char) : List UInt8 := cs.flatMap String.utf8EncodeChar

theorem bytes_eq_utf8 (s : String) : bytes s = utf8 s.toList := bytes_eq_flatMap s

theorem utf8_cons (c : Char) (cs : List Char) :
    utf8 (c :: cs) = String.utf8EncodeChar c ++ utf8 cs := List.flatMap_cons

theorem bytes_singleton (c : Char) : bytes (String.singleton c) = String.utf8EncodeChar c := by
  rw [bytes_eq_utf8, String.toList_singleton, utf8, List.flatMap_singleton]

/-- A segment stands for a text if its bytes are those of the text. -/
theorem decode?_eq_some_iff {segment : List Char} {s : String} :
    decode? segment = some s ↔ percentBytes segment = bytes s := by
  rw [decode?, String.fromUTF8?]
  constructor
  · intro h
    split at h
    · rw [← Option.some.inj h]
      rfl
    · cases h
  · intro h
    have hsame : (⟨(percentBytes segment).toArray⟩ : ByteArray) = s.toByteArray := by
      rw [h, bytes, Array.toArray_toList]
      rfl
    rw [dif_pos (hsame ▸ s.isValidUTF8), Option.some.injEq, ← String.toByteArray_inj]
    exact hsame

/-! ## Triples -/

/-- A percent sign and two digits stand somewhere. -/
def Triple (cs : List Char) : Prop :=
  ∃ a b, ['%', a, b] <:+: cs ∧ (hexValue? a).isSome = true ∧ (hexValue? b).isSome = true

/-- A triple stands at the front. -/
def StartsTriple : List Char → Prop
  | '%' :: a :: b :: _ => (hexValue? a).isSome = true ∧ (hexValue? b).isSome = true
  | _ => False

theorem triple_cons {c : Char} {cs : List Char} :
    Triple (c :: cs) ↔ StartsTriple (c :: cs) ∨ Triple cs := by
  constructor
  · rintro ⟨a, b, hstands, ha, hb⟩
    obtain ⟨rest, hrest⟩ | hstands := List.infix_cons_iff.1 hstands
    · rw [← hrest]
      exact .inl ⟨ha, hb⟩
    · exact .inr ⟨a, b, hstands, ha, hb⟩
  · rintro (h | ⟨a, b, hstands, ha, hb⟩)
    · unfold StartsTriple at h
      split at h
      · next a b rest heq =>
        rw [heq]
        exact ⟨a, b, List.IsPrefix.isInfix (List.prefix_append ['%', a, b] rest), h⟩
      · cases h
    · exact ⟨a, b, List.infix_cons hstands, ha, hb⟩

theorem percentBytes_of_ne {c : Char} (h : c ≠ '%') (rest : List Char) :
    percentBytes (c :: rest) = String.utf8EncodeChar c ++ percentBytes rest := by
  rw [percentBytes.eq_def]
  simp only [if_neg h]
  rw [← bytes, bytes_singleton]

theorem percentBytes_triple {a b : Char} {x y : Nat} (ha : hexValue? a = some x)
    (hb : hexValue? b = some y) (rest : List Char) :
    percentBytes ('%' :: a :: b :: rest) = UInt8.ofNat (x * 16 + y) :: percentBytes rest := by
  rw [percentBytes.eq_def]
  simp only [if_pos, ha, hb]

/-- A percent sign that begins no triple stands for itself. -/
theorem percentBytes_percent {cs : List Char} (h : ¬ StartsTriple ('%' :: cs)) :
    percentBytes ('%' :: cs) = String.utf8EncodeChar '%' ++ percentBytes cs := by
  have hpercent : String.utf8EncodeChar '%' = ['%'.toUInt8] := by decide
  rw [percentBytes.eq_def, hpercent, List.singleton_append]
  simp only [if_pos]
  split
  · next a b more =>
    split
    · next ha hb => exact absurd ⟨by rw [ha]; rfl, by rw [hb]; rfl⟩ h
    · rfl
  · rfl

/-! ## Characters that are written as triples -/

theorem hexValue?_hexUpper (n : Nat) : hexValue? (hexUpper n) = some (n % 16) := by
  have hall : ∀ k : Fin 16, hexValue? (Nat.digitChar k.val).toUpper = some k.val := by decide
  exact hall ⟨n % 16, Nat.mod_lt _ (by decide)⟩

theorem percentBytes_percent_byte (b : UInt8) (rest : List Char) :
    percentBytes (percent b ++ rest) = b :: percentBytes rest := by
  have hb : b.toNat < 256 := b.toNat_lt
  have hhigh : b.toNat / 16 % 16 = b.toNat / 16 := Nat.mod_eq_of_lt (by omega)
  have hvalue : b.toNat / 16 * 16 + b.toNat % 16 = b.toNat := by omega
  rw [percent, List.cons_append, List.cons_append, List.cons_append, List.nil_append,
    percentBytes_triple (hexValue?_hexUpper _) (hexValue?_hexUpper _), hhigh, hvalue,
    UInt8.ofNat_toNat]

/-- A character that is written as triples stands for itself. -/
theorem percentBytes_percentChar (c : Char) (rest : List Char) :
    percentBytes (percentChar c ++ rest) = String.utf8EncodeChar c ++ percentBytes rest := by
  have hbytes (bs : List UInt8) :
      percentBytes (bs.flatMap percent ++ rest) = bs ++ percentBytes rest := by
    induction bs with
    | nil => rfl
    | cons b bs ih =>
      rw [List.flatMap_cons, List.append_assoc, percentBytes_percent_byte, ih, List.cons_append]
  rw [percentChar, ← bytes, bytes_singleton]
  exact hbytes _

theorem exists_percentChar (c : Char) : ∃ rest, percentChar c = '%' :: rest := by
  obtain ⟨b, bs, hb⟩ := List.exists_cons_of_ne_nil (String.utf8EncodeChar_ne_nil (c := c))
  refine ⟨hexUpper (b.toNat / 16) :: hexUpper b.toNat :: bs.flatMap percent, ?_⟩
  rw [percentChar, ← bytes, bytes_singleton, hb, List.flatMap_cons, percent]
  rfl

/-! ## Texts in a path -/

/-- A character as it stands in a path. -/
def inPath (c : Char) : List Char :=
  if c.toNat ≤ 0x1F || c.toNat ≥ 0x7F || pathReserved.contains c then percentChar c else [c]

theorem percentEncode_cons (c : Char) (cs : List Char) :
    percentEncode pathReserved (c :: cs) = inPath c ++ percentEncode pathReserved cs :=
  List.flatMap_cons

theorem inPath_cases (c : Char) : inPath c = percentChar c ∨ inPath c = [c] := by
  unfold inPath
  split
  · exact .inl rfl
  · exact .inr rfl

theorem inPath_percent : inPath '%' = ['%'] := by decide

theorem isSome_hexValue?_iff {c : Char} : (hexValue? c).isSome = true ↔
    (48 ≤ c.toNat ∧ c.toNat ≤ 57) ∨ (97 ≤ c.toNat ∧ c.toNat ≤ 102) ∨
      (65 ≤ c.toNat ∧ c.toNat ≤ 70) := by
  have hdigit : '0' ≤ c ∧ c ≤ '9' ↔ 48 ≤ c.toNat ∧ c.toNat ≤ 57 := Iff.rfl
  have hlower : 'a' ≤ c ∧ c ≤ 'f' ↔ 97 ≤ c.toNat ∧ c.toNat ≤ 102 := Iff.rfl
  have hupper : 'A' ≤ c ∧ c ≤ 'F' ↔ 65 ≤ c.toNat ∧ c.toNat ≤ 70 := Iff.rfl
  rw [hexValue?, ← hdigit, ← hlower, ← hupper]
  split
  · next h => simp [h]
  split
  · next h => simp [h]
  split
  · next h => simp [h]
  · refine iff_of_false Bool.false_ne_true ?_
    rintro (h | h | h) <;> contradiction

/-- A digit in a path stands there as itself. -/
theorem inPath_of_isSome {c : Char} (h : (hexValue? c).isSome = true) : inPath c = [c] := by
  have hrange := isSome_hexValue?_iff.1 h
  have hreserved : pathReserved.all (fun r => (hexValue? r).isNone) = true := by decide
  have hnot : pathReserved.contains c = false := by
    rw [Bool.eq_false_iff]
    intro hc
    have hnone := List.all_eq_true.1 hreserved c (List.contains_iff_mem.1 hc)
    rw [Option.isNone_iff_eq_none.1 hnone] at h
    cases h
  rw [inPath, if_neg]
  simp only [hnot, Bool.or_false, Bool.or_eq_true, decide_eq_true_eq]
  omega

/-- What is written at the front is a digit only if the text begins with it. -/
theorem exists_cons_of_percentEncode {cs rest : List Char} {a : Char}
    (h : percentEncode pathReserved cs = a :: rest) (ha : (hexValue? a).isSome = true) :
    ∃ cs', cs = a :: cs' ∧ rest = percentEncode pathReserved cs' := by
  cases cs with
  | nil => cases h
  | cons c cs =>
    rw [percentEncode_cons] at h
    obtain hchar | hchar := inPath_cases c
    · obtain ⟨more, hmore⟩ := exists_percentChar c
      rw [hchar, hmore, List.cons_append] at h
      cases h
      cases ha
    · rw [hchar, List.singleton_append] at h
      cases h
      exact ⟨cs, rfl, rfl⟩

theorem startsTriple_percentEncode {cs : List Char} :
    StartsTriple ('%' :: percentEncode pathReserved cs) ↔ StartsTriple ('%' :: cs) := by
  constructor
  · intro h
    unfold StartsTriple at h
    split at h
    · next a b rest heq =>
      obtain ⟨cs', rfl, hrest⟩ := exists_cons_of_percentEncode (List.cons.inj heq).2 h.1
      obtain ⟨cs'', rfl, -⟩ := exists_cons_of_percentEncode hrest.symm h.2
      exact h
    · cases h
  · intro h
    unfold StartsTriple at h
    split at h
    · next a b rest heq =>
      cases heq
      rw [percentEncode_cons, percentEncode_cons, inPath_of_isSome h.1, inPath_of_isSome h.2]
      exact h
    · cases h

/-- What stands at the front of a path stands for itself, unless it begins a triple. -/
theorem percentBytes_percentEncode_cons {c : Char} {cs : List Char}
    (h : ¬ StartsTriple (c :: cs)) : percentBytes (percentEncode pathReserved (c :: cs)) =
      String.utf8EncodeChar c ++ percentBytes (percentEncode pathReserved cs) := by
  rw [percentEncode_cons]
  by_cases hc : c = '%'
  · subst hc
    rw [inPath_percent, List.singleton_append,
      percentBytes_percent (mt startsTriple_percentEncode.1 h)]
  · obtain hchar | hchar := inPath_cases c
    · rw [hchar, percentBytes_percentChar]
    · rw [hchar, List.singleton_append, percentBytes_of_ne hc]

/-- **A text without triples is what its segment stands for.** -/
theorem percentBytes_percentEncode {cs : List Char} (h : ¬ Triple cs) :
    percentBytes (percentEncode pathReserved cs) = utf8 cs := by
  induction cs with
  | nil => rfl
  | cons c cs ih =>
    obtain ⟨hstart, hrest⟩ := not_or.1 (mt triple_cons.2 h)
    rw [percentBytes_percentEncode_cons hstart, utf8_cons, ih hrest]

/-- A triple at the front of a path stands for one byte. -/
theorem percentBytes_percentEncode_triple {cs : List Char} (h : StartsTriple cs) :
    ∃ b rest, percentBytes (percentEncode pathReserved cs) =
        b :: percentBytes (percentEncode pathReserved rest) ∧
      rest.length < cs.length ∧ (utf8 rest).length + 3 ≤ (utf8 cs).length := by
  unfold StartsTriple at h
  split at h
  · next a b rest =>
    obtain ⟨x, hx⟩ := Option.isSome_iff_exists.1 h.1
    obtain ⟨y, hy⟩ := Option.isSome_iff_exists.1 h.2
    refine ⟨UInt8.ofNat (x * 16 + y), rest, ?_, ?_, ?_⟩
    · rw [percentEncode_cons, percentEncode_cons, percentEncode_cons, inPath_percent,
        inPath_of_isSome h.1, inPath_of_isSome h.2]
      exact percentBytes_triple hx hy _
    · simp only [List.length_cons]
      omega
    · have hpos (c : Char) : 0 < (String.utf8EncodeChar c).length :=
        List.length_pos_iff.2 String.utf8EncodeChar_ne_nil
      have h1 := hpos '%'
      have h2 := hpos a
      have h3 := hpos b
      simp only [utf8_cons, List.length_append]
      omega
  · cases h

theorem length_percentBytes_le (cs : List Char) :
    (percentBytes (percentEncode pathReserved cs)).length ≤ (utf8 cs).length := by
  induction hn : cs.length using Nat.strong_induction_on generalizing cs with
  | _ n ih =>
    subst hn
    cases cs with
    | nil => exact Nat.le_refl 0
    | cons c cs =>
      by_cases hstart : StartsTriple (c :: cs)
      · obtain ⟨b, rest, hbytes, hlength, hutf8⟩ := percentBytes_percentEncode_triple hstart
        have := ih _ hlength rest rfl
        rw [hbytes, List.length_cons]
        omega
      · have := ih cs.length (Nat.lt_succ_self _) cs rfl
        rw [percentBytes_percentEncode_cons hstart, utf8_cons, List.length_append,
          List.length_append]
        omega

/-- **A text with a triple stands for fewer bytes.** -/
theorem length_percentBytes_lt {cs : List Char} (h : Triple cs) :
    (percentBytes (percentEncode pathReserved cs)).length < (utf8 cs).length := by
  induction cs with
  | nil =>
    obtain ⟨a, b, hstands, -⟩ := h
    cases List.infix_nil.1 hstands
  | cons c cs ih =>
    by_cases hstart : StartsTriple (c :: cs)
    · obtain ⟨b, rest, hbytes, -, hutf8⟩ := percentBytes_percentEncode_triple hstart
      have := length_percentBytes_le rest
      rw [hbytes, List.length_cons]
      omega
    · have := ih ((triple_cons.1 h).resolve_left hstart)
      rw [percentBytes_percentEncode_cons hstart, utf8_cons, List.length_append,
        List.length_append]
      omega

/-! ## Parts of a text -/

theorem length_utf8_le {s t : List Char} (h : s.Sublist t) :
    (utf8 s).length ≤ (utf8 t).length := by
  induction h with
  | slnil => exact Nat.le_refl 0
  | cons c _ ih =>
    rw [utf8_cons, List.length_append]
    omega
  | cons_cons c _ ih =>
    rw [utf8_cons, utf8_cons, List.length_append, List.length_append]
    omega

/-- A part of a text that has all its bytes is all of it. -/
theorem eq_of_sublist {s t : List Char} (h : s.Sublist t)
    (hlength : (utf8 t).length ≤ (utf8 s).length) : s = t := by
  induction h with
  | slnil => rfl
  | cons c hsub ih =>
    have hpos : 0 < (String.utf8EncodeChar c).length :=
      List.length_pos_iff.2 String.utf8EncodeChar_ne_nil
    have := length_utf8_le hsub
    rw [utf8_cons, List.length_append] at hlength
    omega
  | cons_cons c _ ih =>
    rw [utf8_cons, utf8_cons, List.length_append, List.length_append] at hlength
    rw [ih (by omega)]

/-- **A text without triples is decoded from its segment.** -/
theorem decode?_percentEncode {text : String} (h : ¬ Triple text.toList) :
    decode? (percentEncode pathReserved text.toList) = some text := by
  rw [decode?_eq_some_iff, percentBytes_percentEncode h, bytes_eq_utf8]

/-- **The segment of a part of a text stands for the text only if it is all of it.** -/
theorem eq_of_decode? {s : List Char} {text : String} (h : s.Sublist text.toList)
    (hdecode : decode? (percentEncode pathReserved s) = some text) :
    s = text.toList ∧ ¬ Triple s := by
  have hbytes := congrArg List.length (decode?_eq_some_iff.1 hdecode)
  rw [bytes_eq_utf8] at hbytes
  have hpart := length_utf8_le h
  refine ⟨eq_of_sublist h ?_, fun htriple => ?_⟩
  · have := length_percentBytes_le s
    omega
  · have := length_percentBytes_lt htriple
    omega

end TaskStack.Http
