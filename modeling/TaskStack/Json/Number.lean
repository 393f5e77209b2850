import TaskStack.Decimal.Shortest
import TaskStack.Json.Value

/-!
# The text of a number

A whole number is written in decimal. A double is written with the fewest digits that read back:
positionally, with at least one digit after the point, when its leading digit stands at a power of
ten from `10 ^ -5` to `10 ^ 15`, and else with an exponent that carries its sign.
-/

namespace TaskStack

/-- Where a decimal is written positionally. -/
structure PointRange where
  lowest : Int
  highest : Int

/-- A double has its point in place from `0.00001` up to sixteen digits. -/
def Number.positional : PointRange := ⟨-5, 15⟩

namespace Decimal

def zeros (n : Nat) : List Char := List.replicate n '0'

/-- Writes a decimal positionally when its leading digit is in the range, and else with an
exponent. -/
def Numeral.write (range : PointRange) (d : Numeral) : List Char :=
  let digits := Nat.toDigits 10 d.digits
  let leading : Int := d.exponent + (digits.length : Int) - 1
  if range.lowest ≤ leading ∧ leading ≤ range.highest then
    if leading < 0 then
      ['0', '.'] ++ zeros ((-leading).toNat - 1) ++ digits
    else
      let whole := leading.toNat + 1
      let fraction := digits.drop whole
      digits.take whole ++ zeros (whole - digits.length) ++ '.' ::
        (if fraction.isEmpty then ['0'] else fraction)
  else
    let fraction := digits.drop 1
    digits.take 1 ++ (if fraction.isEmpty then [] else '.' :: fraction) ++ 'e' ::
      (if leading < 0 then '-' else '+') :: Nat.toDigits 10 leading.natAbs

end Decimal

namespace Number

def writeInt (n : Int) : List Char :=
  if n < 0 then '-' :: Nat.toDigits 10 n.natAbs else Nat.toDigits 10 n.natAbs

def writeDouble (bits : UInt64) : List Char :=
  let (negative, size) := Decimal.Binary.ofBits bits
  let text := match size with
    | none => ['0', '.', '0']
    | some b => b.shortest.write positional
  if negative then '-' :: text else text

def write : Number → List Char
  | .integer n => writeInt n.val
  | .double bits => writeDouble bits

/-- The text of a number. -/
def text (n : Number) : String := String.ofList n.write

example : (Number.integer ⟨-7, by decide⟩).text = "-7" := by decide +kernel
example : (Number.double 0x8000000000000000).text = "-0.0" := by decide +kernel
example : (Number.double 0x3FF8000000000000).text = "1.5" := by decide +kernel
example : (Number.double 0x4341C37937E08000).text = "1e+16" := by decide +kernel
example : (Number.double 0x3EB92A737110E454).text = "1.5e-6" := by decide +kernel

end Number
end TaskStack
