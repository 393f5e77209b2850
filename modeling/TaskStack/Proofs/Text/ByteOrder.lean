import Mathlib.Algebra.Group.Nat.Defs
import Mathlib.Data.List.Lex
import Mathlib.Tactic.SplitIfs

/-!
# The order of names is the order of their bytes

Strings are compared by their code points. In UTF-8 a greater code point has greater bytes: the
first byte of a character tells how many follow, and together they hold the digits of the code
point in base 64, the highest first. So names stand in the same order when their bytes are compared.

* `digits_lt`: of two numbers with as many digits, the greater one has the greater bytes.
* `bytes_lt_bytes`: a lesser string has lesser bytes.
-/

namespace TaskStack.Text

/-- The bytes of a string in UTF-8. -/
def bytes (s : String) : List UInt8 := s.toUTF8.data.toList

theorem bytes_eq_flatMap (s : String) : bytes s = s.toList.flatMap String.utf8EncodeChar := by
  obtain ⟨cs, rfl⟩ : ∃ cs, s = String.ofList cs := ⟨s.toList, String.ofList_toList.symm⟩
  simp [bytes, List.utf8Encode]

/-! ## Digits -/

/-- A number in base 64 with some digits behind the first, which is marked. -/
def digits (mark : Nat) : Nat → Nat → List UInt8
  | 0, v => [UInt8.ofNat (v + mark)]
  | k + 1, v => digits mark k (v / 64) ++ [UInt8.ofNat (v % 64 + 0x80)]

theorem ofNat_lt_ofNat {m n : Nat} (hn : n < 256) (h : m < n) : UInt8.ofNat m < UInt8.ofNat n := by
  rw [UInt8.lt_iff_toNat_lt, UInt8.toNat_ofNat_of_lt' (h.trans hn), UInt8.toNat_ofNat_of_lt' hn]
  exact h

theorem digits_eq_cons (mark k v : Nat) :
    ∃ rest, digits mark k v = UInt8.ofNat (v / 64 ^ k + mark) :: rest := by
  induction k generalizing v with
  | zero => exact ⟨[], by simp [digits]⟩
  | succ k ih =>
    obtain ⟨rest, h⟩ := ih (v / 64)
    refine ⟨rest ++ [UInt8.ofNat (v % 64 + 0x80)], ?_⟩
    rw [digits, h, Nat.div_div_eq_div_mul, Nat.pow_succ, Nat.mul_comm 64, List.cons_append]

/-- **Of two numbers with as many digits the greater one has the greater bytes.** -/
theorem digits_lt {mark k m n : Nat} (h : m < n) (hn : n / 64 ^ k + mark < 256)
    (x y : List UInt8) : digits mark k m ++ x < digits mark k n ++ y := by
  induction k generalizing m n x y with
  | zero =>
    rw [Nat.pow_zero, Nat.div_one] at hn
    exact .rel (ofNat_lt_ofNat hn (Nat.add_lt_add_right h mark))
  | succ k ih =>
    rw [digits, digits, List.append_assoc, List.append_assoc]
    obtain hhigher | hhigher : m / 64 < n / 64 ∨ m / 64 = n / 64 := by omega
    · refine ih hhigher ?_ _ _
      rwa [Nat.div_div_eq_div_mul, Nat.mul_comm, ← Nat.pow_succ]
    · rw [hhigher]
      exact List.append_left_lt (.rel (ofNat_lt_ofNat (by omega) (by omega)))

theorem digits_lt_of_head_lt {mark mark' k k' m n : Nat}
    (h : m / 64 ^ k + mark < n / 64 ^ k' + mark') (hn : n / 64 ^ k' + mark' < 256)
    (x y : List UInt8) : digits mark k m ++ x < digits mark' k' n ++ y := by
  obtain ⟨rest, hm⟩ := digits_eq_cons mark k m
  obtain ⟨rest', hn'⟩ := digits_eq_cons mark' k' n
  rw [hm, hn']
  exact .rel (ofNat_lt_ofNat hn h)

/-! ## Characters -/

theorem toNat_lt (c : Char) : c.toNat < 0x110000 := by
  have h := c.valid
  simp only [UInt32.isValidChar, Nat.isValidChar] at h
  rw [Char.toNat]
  omega

/-- A character as digits: how many, and the mark of the first, depends on its code point. -/
theorem utf8EncodeChar_eq_digits (c : Char) : String.utf8EncodeChar c =
    if c.toNat ≤ 0x7f then digits 0 0 c.toNat
    else if c.toNat ≤ 0x7ff then digits 0xc0 1 c.toNat
    else if c.toNat ≤ 0xffff then digits 0xe0 2 c.toNat
    else digits 0xf0 3 c.toNat := by
  have hc := toNat_lt c
  simp only [String.utf8EncodeChar, Char.toNat] at hc ⊢
  generalize c.val.toNat = v at hc
  simp only [digits, List.cons_append, List.nil_append, Nat.div_div_eq_div_mul, Nat.reduceMul]
  split_ifs
  · rfl
  · rw [Nat.mod_eq_of_lt (by omega)]
  · rw [Nat.mod_eq_of_lt (by omega)]
  · rw [Nat.mod_eq_of_lt (by omega)]

/-- A lesser character has lesser bytes, whatever comes after it. -/
theorem utf8EncodeChar_lt {c d : Char} (h : c < d) (x y : List UInt8) :
    String.utf8EncodeChar c ++ x < String.utf8EncodeChar d ++ y := by
  have hlt : c.toNat < d.toNat := h
  have hd := toNat_lt d
  rw [utf8EncodeChar_eq_digits, utf8EncodeChar_eq_digits]
  split_ifs
  all_goals first
    | exact digits_lt hlt (by omega) x y
    | exact digits_lt_of_head_lt (by omega) (by omega) x y

theorem flatMap_utf8EncodeChar_lt {cs ds : List Char} (h : cs < ds) :
    cs.flatMap String.utf8EncodeChar < ds.flatMap String.utf8EncodeChar := by
  induction h with
  | @nil d ds =>
    obtain ⟨b, bs, hb⟩ := List.exists_cons_of_ne_nil (String.utf8EncodeChar_ne_nil (c := d))
    rw [List.flatMap_nil, List.flatMap_cons, hb]
    exact .nil
  | rel hlt => exact utf8EncodeChar_lt hlt _ _
  | cons _ ih => exact List.append_left_lt ih

/-- **A lesser string has lesser bytes.** -/
theorem bytes_lt_bytes {s t : String} (h : s < t) : bytes s < bytes t := by
  rw [bytes_eq_flatMap, bytes_eq_flatMap]
  exact flatMap_utf8EncodeChar_lt h

/-- The order of strings, told by their bytes. -/
theorem le_iff_bytes {s t : String} : s ≤ t ↔ s = t ∨ bytes s < bytes t := by
  constructor
  · intro h
    by_cases hlt : s < t
    · exact .inr (bytes_lt_bytes hlt)
    · exact .inl (String.le_antisymm h (String.not_lt.1 hlt))
  · rintro (rfl | h)
    · exact String.le_refl s
    · exact String.not_lt.1 fun hlt => List.lt_asymm h (bytes_lt_bytes hlt)

theorem lt_iff_bytes {s t : String} : s < t ↔ bytes s < bytes t := by
  refine ⟨bytes_lt_bytes, fun h => ?_⟩
  by_contra hlt
  obtain rfl | h' := le_iff_bytes.1 (String.not_lt.1 hlt)
  · exact List.lt_irrefl _ h
  · exact List.lt_asymm h h'

end TaskStack.Text
