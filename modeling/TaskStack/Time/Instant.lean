import TaskStack.Text.Blank

/-!
# Points in time

A point in time is a count of seconds and a fraction of nanoseconds; in a leap second the fraction
is a second or more. `ofText?` reads a date, a time and an offset from universal time, with blanks
and short numbers allowed between the marks; `text` writes universal time with as many digits of
the fraction as it needs, in groups of three.
-/

namespace TaskStack

/-- Seconds since the start of 1970 in universal time, and nanoseconds after them. -/
structure Instant where
  seconds : Int
  nanos : Nat := 0
deriving DecidableEq, Repr, Inhabited

namespace Instant

/-! ## Days -/

structure Date where
  year : Int
  month : Nat
  day : Nat
deriving DecidableEq, Repr

def isLeapYear (y : Int) : Bool := y % 4 = 0 && (y % 100 ≠ 0 || y % 400 = 0)

def daysInMonth (y : Int) (m : Nat) : Nat :=
  if m = 2 then (if isLeapYear y then 29 else 28)
  else if m = 4 ∨ m = 6 ∨ m = 9 ∨ m = 11 then 30
  else 31

/-- Years within which dates are kept. -/
def firstYear : Int := -262143
def lastYear : Int := 262142

def Date.valid (d : Date) : Bool :=
  firstYear ≤ d.year && d.year ≤ lastYear && 1 ≤ d.month && d.month ≤ 12 &&
    1 ≤ d.day && d.day ≤ daysInMonth d.year d.month

/-- Days since the start of 1970. Years are counted from March, so the leap day comes last. -/
def Date.toDays (d : Date) : Int :=
  let y := if d.month ≤ 2 then d.year - 1 else d.year
  let era := y / 400
  let yearOfEra := y % 400
  let dayOfYear : Int := (153 * ((d.month + 9) % 12) + 2) / 5 + d.day - 1
  era * 146097 + (yearOfEra * 365 + yearOfEra / 4 - yearOfEra / 100 + dayOfYear) - 719468

def Date.ofDays (days : Int) : Date :=
  let z := days + 719468
  let era := z / 146097
  let dayOfEra := z % 146097
  let yearOfEra := (dayOfEra - dayOfEra / 1460 + dayOfEra / 36524 - dayOfEra / 146096) / 365
  let dayOfYear := (dayOfEra - (365 * yearOfEra + yearOfEra / 4 - yearOfEra / 100)).toNat
  let shifted := (5 * dayOfYear + 2) / 153
  let day := dayOfYear - (153 * shifted + 2) / 5 + 1
  let month := if shifted < 10 then shifted + 3 else shifted - 9
  ⟨yearOfEra + era * 400 + (if month ≤ 2 then 1 else 0), month, day⟩

/-! ## Writing -/

/-- A number with leading zeros. -/
def padded (width n : Nat) : String :=
  let ds := Nat.toDigits 10 n
  String.ofList (List.replicate (width - ds.length) '0' ++ ds)

/-- A year beyond four digits carries its sign. -/
def yearText (y : Int) : String :=
  if 0 ≤ y ∧ y ≤ 9999 then padded 4 y.toNat
  else (if y < 0 then "-" else "+") ++ padded 4 y.natAbs

def fractionText (nanos : Nat) : String :=
  if nanos = 0 then ""
  else if nanos % 1000000 = 0 then "." ++ padded 3 (nanos / 1000000)
  else if nanos % 1000 = 0 then "." ++ padded 6 (nanos / 1000)
  else "." ++ padded 9 nanos

def dateText (t : Instant) : String :=
  let d := Date.ofDays (t.seconds / 86400)
  yearText d.year ++ "-" ++ padded 2 d.month ++ "-" ++ padded 2 d.day

def timeText (t : Instant) : String :=
  let ofDay := (t.seconds % 86400).toNat
  padded 2 (ofDay / 3600) ++ ":" ++ padded 2 (ofDay / 60 % 60) ++ ":" ++
    padded 2 (ofDay % 60 + t.nanos / 1000000000) ++ fractionText (t.nanos % 1000000000)

/-- The form that messages carry. -/
def text (t : Instant) : String := t.dateText ++ "T" ++ t.timeText ++ "Z"

/-- The form for readers. -/
def display (t : Instant) : String := t.dateText ++ " " ++ t.timeText ++ " UTC"

/-! ## Reading -/

abbrev Scan (α : Type) := List Char → Option (α × List Char)

def digitsOf (cs : List Char) : Nat :=
  cs.foldl (fun n c => n * 10 + (c.toNat - '0'.toNat)) 0

/-- A number of one to `width` digits. -/
def number (width : Nat) : Scan Nat := fun cs =>
  let ds := (cs.take width).takeWhile Char.isDigit
  if ds.isEmpty then none else some (digitsOf ds, cs.drop ds.length)

/-- A number of at most two digits after blanks. -/
def part : Scan Nat := fun cs => number 2 (Text.trimStart cs)

/-- A year: up to four digits, or a sign and any number of digits. -/
def year : Scan Int := fun cs =>
  match Text.trimStart cs with
  | '-' :: rest => (number rest.length rest).map fun r => (-(r.1 : Int), r.2)
  | '+' :: rest => (number rest.length rest).map fun r => ((r.1 : Int), r.2)
  | cs => (number 4 cs).map fun r => ((r.1 : Int), r.2)

/-- A character after blanks. -/
def mark (c : Char) : Scan Unit := fun cs =>
  match Text.trimStart cs with
  | d :: rest => if d = c then some ((), rest) else none
  | [] => none

/-- Digits after a point, if there is one; more than nine do not matter. -/
def fraction : Scan Nat
  | '.' :: rest =>
    let ds := (rest.take 9).takeWhile Char.isDigit
    if ds.isEmpty then none
    else some (digitsOf ds * Nat.pow 10 (9 - ds.length), rest.dropWhile Char.isDigit)
  | cs => some (0, cs)

def twoDigits : Scan Nat
  | a :: b :: rest =>
    if a.isDigit && b.isDigit then some (digitsOf [a, b], rest) else none
  | _ => none

/-- The offset from universal time in seconds. -/
def offset : Scan Int := fun cs =>
  match cs with
  | 'Z' :: rest | 'z' :: rest => some (0, rest)
  | a :: b :: c :: rest =>
    if (a = 'U' ∨ a = 'u') ∧ (b = 'T' ∨ b = 't') ∧ (c = 'C' ∨ c = 'c') then some (0, rest)
    else if a = '+' then amount (b :: c :: rest)
    else if a = '-' ∨ a = '\u2212' then (amount (b :: c :: rest)).map fun r => (-r.1, r.2)
    else none
  | _ => none
where
  amount : Scan Int := fun cs => do
    let (hours, cs) ← twoDigits cs
    let (minutes, cs) ← twoDigits (cs.dropWhile fun c => c = ':' || Text.isBlank c)
    if minutes < 60 then some ((hours * 3600 + minutes * 60 : Int), cs) else none

/-- The point in time that a text names. -/
def ofText? (s : String) : Option Instant := do
  let (y, cs) ← year s.toList
  let ((), cs) ← mark '-' cs
  let (m, cs) ← part cs
  let ((), cs) ← mark '-' cs
  let (d, cs) ← part cs
  let cs ← match cs with
    | c :: rest => if c = 't' ∨ c = 'T' ∨ c = ' ' then some rest else none
    | [] => none
  let (hour, cs) ← part cs
  let ((), cs) ← mark ':' cs
  let (minute, cs) ← part cs
  let ((), cs) ← mark ':' cs
  let (second, cs) ← part cs
  let (nanos, cs) ← fraction cs
  let (shift, cs) ← offset (Text.trimStart cs)
  let date : Date := ⟨y, m, d⟩
  if (Text.trimStart cs).isEmpty ∧ date.valid ∧ hour < 24 ∧ minute < 60 ∧ second ≤ 60 ∧
      shift.natAbs < 86400 then
    let leap := second = 60
    let seconds := date.toDays * 86400 + (hour * 3600 + minute * 60 + min second 59 : Nat) - shift
    let year := (Date.ofDays (seconds / 86400)).year
    if firstYear ≤ year ∧ year ≤ lastYear then
      some ⟨seconds, nanos + if leap then 1000000000 else 0⟩
    else none
  else none

example : (ofText? "2024-02-29T23:59:59-00:30").map text = some "2024-03-01T00:29:59Z" := by
  decide +kernel
example : (ofText? "2024-05-06T07:08:09.5Z").map text = some "2024-05-06T07:08:09.500Z" := by
  decide +kernel
example : ofText? "2023-02-29T00:00:00Z" = none := by decide +kernel
example : ofText? "2024-05-06T07:08:09" = none := by decide +kernel

end Instant
end TaskStack
