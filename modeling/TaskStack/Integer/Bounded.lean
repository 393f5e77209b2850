/-!
# Integers of 64 bits

A task body that works on integers of 64 bits with a sign refuses a result that does not fit. So a
sum or a product is that of integers without a bound, and is looked at afterwards (`add?`, `mul?`).
-/

namespace TaskStack.Int64

/-- The integer fits into 64 bits with a sign. -/
def Fits (n : Int) : Prop := -0x8000000000000000 ≤ n ∧ n < 0x8000000000000000

instance (n : Int) : Decidable (Fits n) := inferInstanceAs (Decidable (_ ∧ _))

def ofInt? (n : Int) : Option Int64 := if Fits n then some (.ofInt n) else none

/-- The integer that a text writes in decimal, with or without a sign. -/
def ofText? (text : String) : Option Int64 :=
  match text.toList with
  | '-' :: ds => (natural? ds).bind fun n => ofInt? (-n)
  | '+' :: ds => (natural? ds).bind fun n => ofInt? n
  | ds => (natural? ds).bind fun n => ofInt? n
where
  natural? (ds : List Char) : Option Nat :=
    if ds.isEmpty || !ds.all Char.isDigit then none
    else some (ds.foldl (fun n c => n * 10 + (c.toNat - '0'.toNat)) 0)

/-- The sum, if it fits. -/
def add? (a b : Int64) : Option Int64 := ofInt? (a.toInt + b.toInt)

/-- The product, if it fits. -/
def mul? (a b : Int64) : Option Int64 := ofInt? (a.toInt * b.toInt)

theorem fits_toInt (n : Int64) : Fits n.toInt := ⟨n.le_toInt, n.toInt_lt⟩

theorem ofInt?_eq_some_iff {n : Int} {m : Int64} : ofInt? n = some m ↔ m.toInt = n := by
  unfold ofInt?
  constructor
  · intro h
    split at h
    · next hn =>
      cases h
      exact Int64.toInt_ofInt_of_le hn.1 hn.2
    · cases h
  · rintro rfl
    rw [if_pos (fits_toInt m), Int64.ofInt_toInt]

theorem ofInt?_eq_none_iff {n : Int} : ofInt? n = none ↔ ¬ Fits n := by
  unfold ofInt?
  split <;> simp_all

@[simp] theorem ofInt?_toInt (n : Int64) : ofInt? n.toInt = some n := ofInt?_eq_some_iff.2 rfl

example : ofText? "+05" = some 5 ∧ ofText? "-" = none ∧ ofText? "1e3" = none := by decide +kernel
example : add? Int64.maxValue 1 = none := by decide

end TaskStack.Int64
