/-!
# Blank space

The characters that count as blank when text is trimmed: those with the White_Space property.
Letter case is folded for ASCII letters alone.
-/

namespace TaskStack.Text

/-- A character with the White_Space property. -/
def isBlank (c : Char) : Bool :=
  let n := c.toNat
  (0x9 ≤ n && n ≤ 0xD) || n == 0x20 || n == 0x85 || n == 0xA0 || n == 0x1680 ||
    (0x2000 ≤ n && n ≤ 0x200A) || n == 0x2028 || n == 0x2029 || n == 0x202F || n == 0x205F ||
    n == 0x3000

theorem isBlank_of_isWhitespace {c : Char} (h : c.isWhitespace = true) : isBlank c = true := by
  simp only [Char.isWhitespace, Bool.or_eq_true, decide_eq_true_eq] at h
  rcases h with (((rfl | rfl) | rfl) | rfl) <;> decide

/-- Drops the blanks in front. -/
def trimStart (cs : List Char) : List Char := cs.dropWhile isBlank

/-- Drops the blanks at both ends. -/
def trim (s : String) : String :=
  String.ofList (trimStart (trimStart s.toList).reverse).reverse

/-- Text of blanks alone, or of nothing. -/
def allBlank (s : String) : Bool := s.toList.all isBlank

theorem allBlank_eq_false {s : String} {c : Char} (hc : c ∈ s.toList) (h : isBlank c = false) :
    allBlank s = false :=
  List.all_eq_false.2 ⟨c, hc, by simp [h]⟩

/-- Folds ASCII capitals; all other characters stay. -/
def asciiLower (s : String) : String := String.ofList (s.toList.map Char.toLower)

example : trim "\u00a0 worker\u3000" = "worker" := by decide
example : trim "\u200bworker" = "\u200bworker" := by decide

end TaskStack.Text
