import TaskStack.Json.Printer
import TaskStack.Json.Record

/-!
# What is written is read back

A reader reads a text as a value if it takes that text off the front of any other and gives the
value. The writers write such texts. A string is read back a character at a time, whatever stands
for it between the quotes. For an object it is enough that every field reads back into the state
that the fields before it have left, so maps and records are read back alike.

* `reads_quote`: a string.
* `Reads.list`, `Reads.dict`, `Reads.option`: what is built from things that are read back.
* `Gathers.record`: a record, from what its fields leave.
-/

namespace TaskStack.Json

variable {α β σ : Type}

theorem commaJoin_cons (item : List Char) (items : List (List Char)) :
    commaJoin (item :: items) = item ++ items.flatMap (',' :: ·) := by
  induction items generalizing item with
  | nil => simp [commaJoin]
  | cons next rest ih => simp [commaJoin, ih]

/-- A walk over things that are all written down takes no more steps than their text is long. -/
theorem length_le_length_flatMap {f : α → List Char} (h : ∀ a, f a ≠ []) (l : List α) :
    l.length ≤ (l.flatMap f).length := by
  induction l with
  | nil => simp
  | cons a l ih =>
    have := List.length_pos_iff.2 (h a)
    simp only [List.flatMap_cons, List.length_append, List.length_cons]
    omega

/-! ## Readers and texts -/

/-- The reader takes the text off the front of any other and gives the value. -/
def Reads (r : Reader α) (text : List Char) (a : α) : Prop :=
  ∀ rest, r (text ++ rest) = .ok (a, rest)

theorem Reads.all {r : Reader α} {text : List Char} {a : α} (h : Reads r text a) :
    r.all (String.ofList text) = .ok a := by
  have := h []
  rw [List.append_nil] at this
  simp [Reader.all, this, skipBlank, bind, Except.bind]

theorem Reads.leading {r : Reader α} {text : List Char} {a : α} (h : Reads r text a) :
    r.leading (String.ofList text) = .ok a := by
  have := h []
  rw [List.append_nil] at this
  simp [Reader.leading, this, bind, Except.bind, pure, Except.pure]

/-- Texts that are read back tell the values apart, whatever follows them. -/
theorem injective_of_reads {r : Reader α} {write : α → List Char}
    (h : ∀ a, Reads r (write a) a) :
    Function.Injective fun x : α × List Char => write x.1 ++ x.2 := by
  rintro ⟨a, rest⟩ ⟨b, rest'⟩ heq
  have hread := (congrArg r heq).symm.trans (h a rest)
  exact (Except.ok.inj ((h b rest').symm.trans hread)).symm

/-- The text begins as a value that is neither a number nor `null`. -/
def Opens (text : List Char) : Prop :=
  ∃ c rest, text = c :: rest ∧ c ∈ ['"', '[', '\x7b', 't', 'f']

theorem opens_cons {c : Char} {rest : List Char} (h : c ∈ ['"', '[', '\x7b', 't', 'f']) :
    Opens (c :: rest) := ⟨c, rest, rfl, h⟩

theorem skipBlank_cons {c : Char} (rest : List Char) (h : isBlank c = false) :
    skipBlank (c :: rest) = c :: rest := by
  simp [skipBlank, h]

theorem isBlank_of_opening {c : Char} (h : c ∈ ['"', '[', '\x7b', 't', 'f']) :
    isBlank c = false := by
  simp only [List.mem_cons, List.not_mem_nil, or_false] at h
  obtain rfl | rfl | rfl | rfl | rfl := h <;> rfl

/-! ## Strings -/

theorem readHex_control (n : Fin 32) (rest : List Char) :
    readHex ('0' :: '0' :: hexDigit (n / 16) :: hexDigit n :: rest) = .ok (n, rest) := by
  have hbytes : ∀ n : Fin 32,
      ¬ (String.ofList ['0', '0', hexDigit (n / 16), hexDigit n]).utf8ByteSize < 4 := by
    decide
  have hdigits : ∀ n : Fin 32, ['0', '0', hexDigit (n / 16), hexDigit n].mapM hexValue? =
      some [0, 0, n.val / 16, n.val % 16] := by
    decide
  simp only [readHex, List.take_succ_cons, List.take_zero, if_neg (hbytes n), hdigits n,
    List.drop_succ_cons, List.drop_zero]
  congr 2
  omega

/-- A control character is read back from its number. -/
theorem readEscape_control {c : Char} (h : c.toNat < 0x20) (rest : List Char) :
    readEscape ('u' :: '0' :: '0' :: hexDigit (c.toNat / 16) :: hexDigit c.toNat :: rest) =
      .ok (c, rest) := by
  have hhex := readHex_control ⟨c.toNat, h⟩ rest
  have htrailing : isTrailing c.toNat = false := by
    simp only [isTrailing, Bool.and_eq_false_iff, decide_eq_false_iff_not]
    omega
  have hleading : isLeading c.toNat = false := by
    simp only [isLeading, Bool.and_eq_false_iff, decide_eq_false_iff_not]
    omega
  simp only [readEscape, if_pos, readUnicode, hhex, bind, Except.bind, htrailing, hleading,
    Bool.false_eq_true, if_false, Char.ofNat_toNat]

/-- One character more is read back, however it is written. -/
theorem readChars_escape (n : Nat) (c : Char) (rest : List Char) :
    readChars (n + 1) (escape c ++ rest) = (do
      let (s, rest) ← readChars n rest
      .ok (c :: s, rest)) := by
  have hsimple {letter : Char} (hu : letter ≠ 'u') (hc : simpleEscape? letter = some c) :
      readChars (n + 1) ('\\' :: letter :: rest) = (do
        let (s, rest) ← readChars n rest
        .ok (c :: s, rest)) := by
    simp [readChars, readEscape, hu, hc, bind, Except.bind]
  unfold escape
  split
  · next h => subst h; exact hsimple (by decide) (by decide)
  split
  · next h => subst h; exact hsimple (by decide) (by decide)
  split
  · next h =>
    obtain rfl : c = '\x08' := Char.ext (UInt32.toNat_inj.1 h)
    exact hsimple (by decide) (by decide)
  split
  · next h =>
    obtain rfl : c = '\x0c' := Char.ext (UInt32.toNat_inj.1 h)
    exact hsimple (by decide) (by decide)
  split
  · next h => subst h; exact hsimple (by decide) (by decide)
  split
  · next h => subst h; exact hsimple (by decide) (by decide)
  split
  · next h => subst h; exact hsimple (by decide) (by decide)
  split
  · next h =>
    simp [readChars, readEscape_control h, bind, Except.bind]
  · next hquote hslash _ _ _ _ _ hcontrol =>
    simp [readChars, hquote, hslash, hcontrol]

theorem readChars_escaped (s : List Char) (n : Nat) (h : s.length < n) (rest : List Char) :
    readChars n (s.flatMap escape ++ '"' :: rest) = .ok (s, rest) := by
  induction s generalizing n with
  | nil =>
    obtain ⟨n, rfl⟩ := Nat.exists_eq_succ_of_ne_zero (Nat.ne_of_gt h)
    rfl
  | cons c s ih =>
    obtain ⟨n, rfl⟩ := Nat.exists_eq_succ_of_ne_zero (Nat.ne_of_gt (Nat.zero_lt_of_lt h))
    rw [List.flatMap_cons, List.append_assoc, readChars_escape,
      ih n (Nat.lt_of_succ_lt_succ h)]
    rfl

theorem escape_ne_nil (c : Char) : escape c ≠ [] := by
  unfold escape
  repeat' split
  all_goals simp

theorem readString_escaped (s : String) (rest : List Char) :
    readString (s.toList.flatMap escape ++ '"' :: rest) = .ok (s, rest) := by
  have hlength := length_le_length_flatMap escape_ne_nil s.toList
  have hchars := readChars_escaped s.toList
    ((s.toList.flatMap escape ++ '"' :: rest).length + 1)
    (by simp only [List.length_append]; omega) rest
  simp only [readString, hchars, bind, Except.bind, String.ofList_toList]

theorem quote_append (s : String) (rest : List Char) :
    quote s ++ rest = '"' :: (s.toList.flatMap escape ++ '"' :: rest) := by
  simp [quote]

/-- **A string is read back from its quotes.** -/
theorem reads_quote (s : String) : Reads Reader.string (quote s) s := by
  intro rest
  rw [quote_append, Reader.string, onFirst, skipBlank_cons _ (by decide)]
  simp only [if_pos, readString_escaped, Option.getD_some]

theorem opens_quote (s : String) : Opens (quote s) := opens_cons (by decide)

/-! ## Flags, and values that may be absent -/

theorem expect_append (word rest : List Char) : expect word (word ++ rest) = .ok rest := by
  induction word with
  | nil => rfl
  | cons c word ih => simp [expect, ih]

theorem reads_writeBool (b : Bool) : Reads Reader.bool (writeBool b) b := by
  intro rest
  cases b with
  | true =>
    have h := expect_append ['r', 'u', 'e'] rest
    simp [Reader.bool, onFirst, writeBool, skipBlank_cons, isBlank] at h ⊢
    simp [h, bind, Except.bind]
  | false =>
    have h := expect_append ['a', 'l', 's', 'e'] rest
    simp [Reader.bool, onFirst, writeBool, skipBlank_cons, isBlank] at h ⊢
    simp [h, bind, Except.bind]

theorem opens_writeBool (b : Bool) : Opens (writeBool b) := by
  cases b <;> exact opens_cons (by decide)

theorem reads_none (r : Reader α) : Reads r.option writeNull none := by
  intro rest
  have h := expect_append ['u', 'l', 'l'] rest
  simp [Reader.option, writeNull, skipBlank_cons, isBlank] at h ⊢
  simp [h, bind, Except.bind]

theorem Reads.some {r : Reader α} {text : List Char} {a : α} (h : Reads r text a)
    (ho : Opens text) : Reads r.option text (some a) := by
  intro rest
  obtain ⟨c, more, rfl, hc⟩ := ho
  have hn : c ≠ 'n' := by
    rintro rfl
    revert hc
    decide
  have hr := h rest
  rw [List.cons_append] at hr ⊢
  rw [Reader.option, skipBlank_cons _ (isBlank_of_opening hc)]
  split
  · next heq => exact absurd (List.cons.inj heq).1 hn
  · simp [hr, bind, Except.bind]

theorem Reads.option {r : Reader α} {write : α → List Char} (h : ∀ a, Reads r (write a) a)
    (ho : ∀ a, Opens (write a)) (a : Option α) : Reads r.option (writeOption write a) a := by
  cases a with
  | none => exact reads_none r
  | some a => exact (h a).some (ho a)

/-- A name is read back if it stands for what it was written for. -/
theorem reads_name {named? : String → Option α} {s : String} {a : α} (h : named? s = some a) :
    Reads (Reader.name named?) (quote s) a := by
  intro rest
  have hs := reads_quote s rest
  rw [quote_append] at *
  rw [Reader.name, skipBlank_cons _ (by decide)]
  simp only [if_pos, Reader.name.known, hs, bind, Except.bind, h]

/-! ## Lists -/

theorem nextItem?_close (first : Bool) (rest : List Char) :
    nextItem? first (']' :: rest) = .ok none := by
  simp [nextItem?, skipBlank_cons, isBlank]

theorem nextItem?_first {text : List Char} (ho : Opens text) (rest : List Char) :
    nextItem? true (text ++ rest) = .ok (some (text ++ rest)) := by
  obtain ⟨c, more, rfl, hc⟩ := ho
  have hclosing : c ≠ ']' := by
    rintro rfl
    revert hc
    decide
  simp [nextItem?, skipBlank_cons _ (isBlank_of_opening hc), hclosing]

theorem nextItem?_comma {text : List Char} (ho : Opens text) (rest : List Char) :
    nextItem? false (',' :: (text ++ rest)) = .ok (some (text ++ rest)) := by
  have hcomma : skipBlank (',' :: (text ++ rest)) = ',' :: (text ++ rest) :=
    skipBlank_cons _ (by decide)
  obtain ⟨c, more, rfl, hc⟩ := ho
  have hclosing : c ≠ ']' := by
    rintro rfl
    revert hc
    decide
  rw [List.cons_append] at hcomma ⊢
  simp [nextItem?, hcomma, skipBlank_cons _ (isBlank_of_opening hc), hclosing]

section

variable {item : Reader α} {write : α → List Char}

theorem readItems_written (hr : ∀ a, Reads item (write a) a) (ho : ∀ a, Opens (write a))
    (as : List α) (n : Nat) (hn : as.length < n) (rest : List Char) :
    readItems item n false ((as.map write).flatMap (',' :: ·) ++ ']' :: rest) =
      .ok (as, ']' :: rest) := by
  induction as generalizing n with
  | nil =>
    obtain ⟨n, rfl⟩ := Nat.exists_eq_succ_of_ne_zero (Nat.ne_of_gt hn)
    simp [readItems, nextItem?_close, bind, Except.bind]
  | cons a as ih =>
    obtain ⟨n, rfl⟩ := Nat.exists_eq_succ_of_ne_zero (Nat.ne_of_gt (Nat.zero_lt_of_lt hn))
    have hlater := ih n (Nat.lt_of_succ_lt_succ hn)
    simp only [List.map_cons, List.flatMap_cons, List.cons_append, List.append_assoc, readItems,
      nextItem?_comma (ho a), hr a _, hlater, bind, Except.bind]

theorem closeArray_close (rest : List Char) : closeArray (']' :: rest) = .ok rest := by
  simp [closeArray, skipBlank_cons, isBlank]

theorem arrayBody_written (hr : ∀ a, Reads item (write a) a) (ho : ∀ a, Opens (write a))
    (as : List α) : Reads (arrayBody item) (commaJoin (as.map write) ++ [']']) as := by
  intro rest
  rw [List.append_assoc, List.singleton_append]
  cases as with
  | nil =>
    simp only [List.map_nil, commaJoin, List.nil_append, arrayBody, readItems, nextItem?_close,
      closeArray_close, bind, Except.bind]
  | cons a as =>
    have hlength := length_le_length_flatMap (f := (',' :: ·)) (fun _ => List.cons_ne_nil _ _)
      (as.map write)
    rw [List.length_map] at hlength
    have hlater := readItems_written hr ho as
      (write a ++ ((as.map write).flatMap (',' :: ·) ++ ']' :: rest)).length
      (by simp only [List.length_append, List.length_cons]; omega) rest
    rw [List.map_cons, commaJoin_cons, List.append_assoc]
    simp only [arrayBody, readItems, nextItem?_first (ho a), hr a _, hlater, closeArray_close,
      bind, Except.bind]

/-- **A list is read back if its items are.** -/
theorem Reads.list (hr : ∀ a, Reads item (write a) a) (ho : ∀ a, Opens (write a)) (as : List α) :
    Reads item.list (writeArray (as.map write)) as := by
  intro rest
  have h := arrayBody_written hr ho as rest
  rw [Reader.list, onFirst, writeArray, List.append_assoc, List.cons_append,
    skipBlank_cons _ (by decide), ← List.append_assoc]
  simpa using h

end

theorem opens_writeArray (items : List (List Char)) : Opens (writeArray items) :=
  opens_cons (by decide)

/-! ## Objects -/

/-- The fields are read one after another and take one state to another. -/
inductive Gathers (field : String → σ → Reader σ) : σ → List (String × List Char) → σ → Prop
  | nil (s : σ) : Gathers field s [] s
  | cons {k : String} {text : List Char} {fields : List (String × List Char)} {s s' s'' : σ} :
      (∀ rest, field k s (':' :: (text ++ rest)) = .ok (s', rest)) → Gathers field s' fields s'' →
      Gathers field s ((k, text) :: fields) s''

/-- A field of an object as it is written. -/
def writtenField (f : String × List Char) : List Char := quote f.1 ++ ':' :: f.2

theorem nextKey?_close {κ : Type} (name : Reader κ) (first : Bool) (rest : List Char) :
    nextKey? name first ('\x7d' :: rest) = .ok none := by
  simp [nextKey?, skipBlank_cons, isBlank]

theorem nextKey?_first (k : String) (rest : List Char) :
    nextKey? readString true (quote k ++ rest) = .ok (some (k, rest)) := by
  rw [quote_append, nextKey?, skipBlank_cons _ (by decide)]
  simp [nextKey?.key, readString_escaped, Functor.map, Except.map]

theorem nextKey?_comma (k : String) (rest : List Char) :
    nextKey? readString false (',' :: (quote k ++ rest)) = .ok (some (k, rest)) := by
  rw [quote_append, nextKey?, skipBlank_cons _ (by decide)]
  simp [skipBlank_cons, isBlank, nextKey?.key, readString_escaped, Functor.map, Except.map]

theorem closeObject_close (rest : List Char) : closeObject ('\x7d' :: rest) = .ok rest := by
  simp [closeObject, skipBlank_cons, isBlank]

section

variable {field : String → σ → Reader σ} {s s' : σ} {fields : List (String × List Char)}

theorem Gathers.readFields (h : Gathers field s fields s') (n : Nat) (hn : fields.length < n)
    (rest : List Char) :
    readFields field n false s ((fields.map writtenField).flatMap (',' :: ·) ++ '\x7d' :: rest) =
      .ok (s', '\x7d' :: rest) := by
  induction h generalizing n with
  | nil s =>
    obtain ⟨n, rfl⟩ := Nat.exists_eq_succ_of_ne_zero (Nat.ne_of_gt hn)
    simp [Json.readFields, nextKey?_close, bind, Except.bind]
  | cons hread _ ih =>
    obtain ⟨n, rfl⟩ := Nat.exists_eq_succ_of_ne_zero (Nat.ne_of_gt (Nat.zero_lt_of_lt hn))
    have hlater := ih n (Nat.lt_of_succ_lt_succ hn)
    simp only [List.map_cons, List.flatMap_cons, writtenField, List.cons_append,
      List.append_assoc, Json.readFields, nextKey?_comma, hread, hlater, bind, Except.bind]

/-- The fields of a written object take the state where their texts do. -/
theorem Gathers.readFields_written (h : Gathers field s fields s') (rest : List Char) :
    let text := commaJoin (fields.map writtenField) ++ '\x7d' :: rest
    Json.readFields field (text.length + 1) true s text = .ok (s', '\x7d' :: rest) := by
  cases h with
  | nil s => simp [Json.readFields, commaJoin, nextKey?_close, bind, Except.bind]
  | @cons k text fields s s' s'' hread hmore =>
    have hlength := length_le_length_flatMap (f := (',' :: ·)) (fun _ => List.cons_ne_nil _ _)
      (fields.map writtenField)
    rw [List.length_map] at hlength
    rw [List.map_cons, commaJoin_cons, writtenField, List.append_assoc, List.append_assoc,
      List.cons_append]
    have hlater := hmore.readFields
      (quote k ++ ':' :: (text ++ ((fields.map writtenField).flatMap (',' :: ·) ++
        '\x7d' :: rest))).length
      (by simp only [List.length_append, List.length_cons]; omega) rest
    simp only [Json.readFields, nextKey?_first, hread, hlater, bind, Except.bind]

theorem writeObject_append (fields : List (String × List Char)) (rest : List Char) :
    writeObject fields ++ rest =
      '\x7b' :: (commaJoin (fields.map writtenField) ++ '\x7d' :: rest) := by
  simp only [writeObject, List.cons_append, List.append_assoc]
  rfl

theorem opens_writeObject (fields : List (String × List Char)) : Opens (writeObject fields) :=
  opens_cons (by decide)

end

/-! ## Maps -/

section

variable {item : Reader α} {write : α → List Char}

theorem entryField_reads (hr : ∀ a, Reads item (write a) a) (k : String) (a : α) (d : Dict α)
    (rest : List Char) :
    entryField item k d (':' :: (write a ++ rest)) = .ok (d.insert k a, rest) := by
  simp [entryField, expectColon, skipBlank_cons, isBlank, hr a _, bind, Except.bind]

theorem gathers_entries (hr : ∀ a, Reads item (write a) a) (entries : List (String × α))
    (d : Dict α) : Gathers (entryField item) d (entries.map fun e => (e.1, write e.2))
      (entries.foldl (fun d e => d.insert e.1 e.2) d) := by
  induction entries generalizing d with
  | nil => exact .nil d
  | cons e entries ih => exact .cons (entryField_reads hr e.1 e.2 d) (ih _)

/-- **A map is read back if its values are.** -/
theorem Reads.dict (hr : ∀ a, Reads item (write a) a) (d : Dict α) :
    Reads item.dict (writeObject (d.entries.map fun e => (e.1, write e.2))) d := by
  intro rest
  have h := (gathers_entries hr d.entries ∅).readFields_written rest
  rw [← Dict.ofList, Dict.ofList_entries] at h
  rw [writeObject_append, Reader.dict, onFirst, skipBlank_cons _ (by decide)]
  simp only [if_pos, objectBody, h, closeObject_close, bind, Except.bind, Option.getD_some]

end

/-! ## Records -/

section

variable {fields : List (RecordField σ)} {get : σ → Option β} {set : β → σ → σ} {r : Reader β}
  {name : String} {s s' : σ} {text : List Char} {b : β}

/-- A field of a record that is not there yet takes its value. -/
theorem recordField_reads (hfind : fields.find? (·.name = name) = some (.of name get set r))
    (hget : get s = none) (hr : Reads r text b) (rest : List Char) :
    recordField fields name s (':' :: (text ++ rest)) = .ok (set b s, rest) := by
  simp [recordField, hfind, RecordField.of, hget, expectColon, skipBlank_cons, isBlank, hr rest,
    bind, Except.bind]

/-- **A record is read back from the state that its fields leave.** -/
theorem Gathers.record {complete? : σ → Option α} {a : α} {written : List (String × List Char)}
    (h : Gathers (recordField fields) s written s') (ha : complete? s' = some a) :
    Reads (Reader.record fields s complete?) (writeObject written) a := by
  intro rest
  have hfields := h.readFields_written rest
  rw [writeObject_append, Reader.record, onFirst, skipBlank_cons _ (by decide)]
  have hbracket : ('\x7b' : Char) ≠ '[' := by decide
  simp only [if_neg hbracket, if_pos, hfields, ha, Option.elim_some, closeObject_close, bind,
    Except.bind, Option.getD_some]

end

/-! ## Whole values -/

theorem reads_value_string (depth : Nat) (s : String) :
    Reads (readValue (depth + 1)) (quote s) (.string s) := by
  intro rest
  rw [quote_append, readValue, skipBlank_cons _ (by decide)]
  have hnumber : startsNumber '"' = false := by decide
  simp [hnumber, readString_escaped, bind, Except.bind]

theorem Gathers.value {depth : Nat} {fields : List (String × List Char)} {d : Dict Value}
    (h : Gathers (entryField (readValue (depth + 1))) ∅ fields d) :
    Reads (readValue (depth + 2)) (writeObject fields) (.ofDict d) := by
  intro rest
  have hfields := h.readFields_written rest
  rw [writeObject_append, readValue, skipBlank_cons _ (by decide)]
  have hnumber : startsNumber '\x7b' = false := by decide
  simp only [hnumber, objectBody, hfields, closeObject_close, bind, Except.bind]
  rfl

end TaskStack.Json
