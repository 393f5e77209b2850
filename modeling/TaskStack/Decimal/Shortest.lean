/-!
# The shortest decimal of a binary fraction

A double stands for every real number that rounds to it. `shortest` finds the decimal with the
fewest digits among those reals, and of several the one nearest to the double itself: for each
count of digits it looks at the two neighbours of the value on the grid of that many digits, in
exact arithmetic, and takes the first grid with a neighbour that rounds back.
-/

namespace TaskStack.Decimal

/-- The number `digits * 10 ^ exponent`. -/
structure Numeral where
  digits : Nat
  exponent : Int
deriving DecidableEq, Repr

/-- The positive number `mantissa * 2 ^ exponent`. The number below it is half as far away as the
one above when `narrow` holds. -/
structure Binary where
  mantissa : Nat
  exponent : Int
  narrow : Bool
deriving DecidableEq, Repr

/-- Reads a finite double: its sign and, unless it is zero, its size. -/
def Binary.ofBits (bits : UInt64) : Bool × Option Binary :=
  let n := bits.toNat
  let fraction : Nat := n % 0x10000000000000
  let field : Nat := n / 0x10000000000000 % 0x800
  let size :=
    if field = 0 then
      if fraction = 0 then none else some ⟨fraction, -1074, false⟩
    else some ⟨fraction + 0x10000000000000, (field : Int) - 1075, fraction == 0 && field != 1⟩
  (n ≥ 0x8000000000000000, size)

/-- The reals that round to a double, as three numerators over one denominator: the lower end, the
double itself, the upper end. The ends belong to it when `closed` holds. -/
structure Interval where
  lower : Nat
  middle : Nat
  upper : Nat
  denominator : Nat
  closed : Bool

def Binary.interval (b : Binary) : Interval :=
  let scale := b.exponent - 2
  let up := Nat.pow 2 scale.toNat
  { lower := (4 * b.mantissa - if b.narrow then 1 else 2) * up
    middle := 4 * b.mantissa * up
    upper := (4 * b.mantissa + 2) * up
    denominator := Nat.pow 2 (-scale).toNat
    closed := b.mantissa % 2 == 0 }

/-- Tells whether `a * 10 ^ k` lies in the interval. -/
def Interval.holds (i : Interval) (a : Nat) (k : Int) : Bool :=
  let point := a * Nat.pow 10 k.toNat * i.denominator
  let scale := Nat.pow 10 (-k).toNat
  if i.closed then i.lower * scale ≤ point && point ≤ i.upper * scale
  else i.lower * scale < point && point < i.upper * scale

def countDigits (n : Nat) : Nat := (Nat.toDigits 10 n).length

/-- The power of ten of the leading digit of `middle / denominator`. -/
def Interval.leading (i : Interval) : Int :=
  if i.denominator ≤ i.middle then countDigits (i.middle / i.denominator) - 1
  else
    let places := countDigits (i.denominator / i.middle)
    if i.denominator ≤ i.middle * Nat.pow 10 (places - 1) then 1 - (places : Int)
    else -(places : Int)

/-- The better neighbour on the grid of `10 ^ k`, if one of the two rounds back. A tie goes to the
even one. -/
def Interval.neighbour? (i : Interval) (k : Int) : Option Numeral :=
  let unit := Nat.pow 10 k.toNat * i.denominator
  let value := i.middle * Nat.pow 10 (-k).toNat
  let below := value / unit
  let rest := value % unit
  match i.holds below k, i.holds (below + 1) k with
  | true, true =>
    if 2 * rest < unit || (2 * rest == unit && below % 2 == 0) then some ⟨below, k⟩
    else some ⟨below + 1, k⟩
  | true, false => some ⟨below, k⟩
  | false, true => some ⟨below + 1, k⟩
  | false, false => none

/-- Moves zeros at the end of the digits into the exponent. -/
def Numeral.stripZeros (d : Numeral) : Numeral :=
  go (countDigits d.digits) d
where
  go : Nat → Numeral → Numeral
    | 0, d => d
    | n + 1, d =>
      if d.digits % 10 = 0 then go n ⟨d.digits / 10, d.exponent + 1⟩ else d

/-- The decimal with the fewest digits that rounds back; seventeen digits always suffice. -/
def Binary.shortest (b : Binary) : Numeral :=
  let i := b.interval
  match (List.range 17).findSome? fun n : Nat => i.neighbour? (i.leading - n) with
  | some d => d.stripZeros
  | none => ⟨0, 0⟩

example : (Binary.ofBits 0x3FB999999999999A).2.map Binary.shortest = some ⟨1, -1⟩ := by
  decide +kernel
example : (Binary.ofBits 1).2.map Binary.shortest = some ⟨5, -324⟩ := by decide +kernel
example :
    (Binary.ofBits 0x4340000000000000).2.map Binary.shortest = some ⟨9007199254740992, 0⟩ := by
  decide +kernel

end TaskStack.Decimal
