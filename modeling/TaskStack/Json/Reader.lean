import TaskStack.Json.Value

/-!
# Reading JSON

A `Reader α` takes a value off the front of a text and leaves the rest, or says what is wrong with
the first thing that is: the text is malformed, it ends too early, or it is well formed but of a
shape that is not asked for. Readers look no further than they have to, so of two faults the one
further left is reported.

Whole values are nested at most `depthLimit` deep. Values nobody asks for are skipped by
`skipValue`, which does not limit the depth and does not look at what an escape stands for.
-/

namespace TaskStack.Json

/-- What is wrong with a text. -/
inductive Fault where
  | malformed
  | truncated
  | mismatched
deriving DecidableEq, Repr

abbrev Reader (α : Type) := List Char → Except Fault (α × List Char)

/-! ## Blanks and words -/

def isBlank (c : Char) : Bool := c = ' ' || c = '\n' || c = '\t' || c = '\r'

def skipBlank (cs : List Char) : List Char := cs.dropWhile isBlank

/-- Takes the rest of a word whose first letter is known. -/
def expect : List Char → List Char → Except Fault (List Char)
  | [], cs => .ok cs
  | _ :: _, [] => .error .truncated
  | w :: ws, c :: cs => if c = w then expect ws cs else .error .malformed

def expectColon (cs : List Char) : Except Fault (List Char) :=
  match skipBlank cs with
  | [] => .error .truncated
  | c :: rest => if c = ':' then .ok rest else .error .malformed

/-! ## Strings -/

def hexValue? (c : Char) : Option Nat :=
  if '0' ≤ c ∧ c ≤ '9' then some (c.toNat - '0'.toNat)
  else if 'a' ≤ c ∧ c ≤ 'f' then some (c.toNat - 'a'.toNat + 10)
  else if 'A' ≤ c ∧ c ≤ 'F' then some (c.toNat - 'A'.toNat + 10)
  else none

/-- Four hexadecimal digits. Text is cut short when fewer than four bytes are left. -/
def readHex (cs : List Char) : Except Fault (Nat × List Char) :=
  if (String.ofList (cs.take 4)).utf8ByteSize < 4 then .error .truncated
  else match (cs.take 4).mapM hexValue? with
    | some [a, b, c, d] => .ok (((a * 16 + b) * 16 + c) * 16 + d, cs.drop 4)
    | _ => .error .malformed

def isTrailing (n : Nat) : Bool := 0xDC00 ≤ n && n ≤ 0xDFFF
def isLeading (n : Nat) : Bool := 0xD800 ≤ n && n ≤ 0xDBFF

/-- What follows the `u` of an escape: four digits, and for a leading surrogate the escape of its
trailing one. -/
def readUnicode (cs : List Char) : Except Fault (Char × List Char) := do
  let (n, rest) ← readHex cs
  if isTrailing n then .error .malformed
  else if isLeading n then
    match rest with
    | [] => .error .truncated
    | c :: rest =>
      if c = '\\' then
        match rest with
        | [] => .error .truncated
        | c :: rest =>
          if c = 'u' then do
            let (m, rest) ← readHex rest
            if isTrailing m then
              .ok (Char.ofNat ((n - 0xD800) * 0x400 + (m - 0xDC00) + 0x10000), rest)
            else .error .malformed
          else .error .malformed
      else .error .malformed
  else .ok (Char.ofNat n, rest)

/-- The character of a two-letter escape. -/
def simpleEscape? (c : Char) : Option Char :=
  if c = '"' ∨ c = '\\' ∨ c = '/' then some c
  else if c = 'b' then some '\x08'
  else if c = 'f' then some '\x0c'
  else if c = 'n' then some '\n'
  else if c = 'r' then some '\r'
  else if c = 't' then some '\t'
  else none

def readEscape : List Char → Except Fault (Char × List Char)
  | [] => .error .truncated
  | c :: rest =>
    if c = 'u' then readUnicode rest
    else match simpleEscape? c with
      | some d => .ok (d, rest)
      | none => .error .malformed

/-- The characters up to the closing quote. -/
def readChars : Nat → List Char → Except Fault (List Char × List Char)
  | 0, _ => .error .truncated
  | _ + 1, [] => .error .truncated
  | n + 1, c :: rest =>
    if c = '"' then .ok ([], rest)
    else if c = '\\' then do
      let (d, rest) ← readEscape rest
      let (s, rest) ← readChars n rest
      .ok (d :: s, rest)
    else if c.toNat < 0x20 then .error .malformed
    else do
      let (s, rest) ← readChars n rest
      .ok (c :: s, rest)

/-- A string whose opening quote is taken. -/
def readString (cs : List Char) : Except Fault (String × List Char) := do
  let (s, rest) ← readChars (cs.length + 1) cs
  .ok (String.ofList s, rest)

/-- Skips to the closing quote. What an escape stands for does not matter. -/
def skipString : Nat → List Char → Except Fault (List Char)
  | 0, _ => .error .truncated
  | _ + 1, [] => .error .truncated
  | n + 1, c :: rest =>
    if c = '"' then .ok rest
    else if c = '\\' then
      match rest with
      | [] => .error .truncated
      | e :: rest =>
        if e = 'u' then do
          let (_, rest) ← readHex rest
          skipString n rest
        else if (simpleEscape? e).isSome then skipString n rest
        else .error .malformed
    else if c.toNat < 0x20 then .error .malformed
    else skipString n rest

/-! ## Numbers -/

def digits (cs : List Char) : List Char := cs.takeWhile Char.isDigit
def afterDigits (cs : List Char) : List Char := cs.dropWhile Char.isDigit

def digitValue (c : Char) : Nat := c.toNat - '0'.toNat

/-- Appends digits to a number as long as it fits into 64 bits; the rest of the digits is left. -/
def takeDigits (m : Nat) : List Char → Nat × List Char
  | [] => (m, [])
  | c :: rest =>
    let next := m * 10 + digitValue c
    if next < 0x10000000000000000 then takeDigits next rest else (m, c :: rest)

def naturalOf (ds : List Char) : Nat := ds.foldl (fun n c => n * 10 + digitValue c) 0

def powerOfTen (n : Nat) : Float := OfScientific.ofScientific 1 false n

/-- Divides by a power of ten, at most `10 ^ 308` at a time. -/
def scaleDown : Nat → Nat → Float → Float
  | 0, _, f => f
  | steps + 1, n, f =>
    if n ≤ 308 then f / powerOfTen n
    else if f == 0 then f
    else scaleDown steps (n - 308) (f / powerOfTen 308)

/-- The double of a 64-bit number times a power of ten, scaled in double arithmetic; three divisions
take every such number to zero. -/
def scale (m : Nat) (exponent : Int) : Except Fault Float :=
  let f := m.toUInt64.toFloat
  if exponent < 0 then .ok (scaleDown 4 exponent.natAbs f)
  else if exponent ≤ 308 then
    let g := f * powerOfTen exponent.natAbs
    if g.isInf then .error .malformed else .ok g
  else if m = 0 then .ok f
  else .error .malformed

/-- The exponent after its mark: its sign and digits. -/
def readExponent (cs : List Char) : Except Fault ((Bool × List Char) × List Char) :=
  let (negative, cs) := match cs with
    | '+' :: rest => (false, rest)
    | '-' :: rest => (true, rest)
    | _ => (false, cs)
  match cs with
  | [] => .error .truncated
  | c :: _ => if c.isDigit then .ok ((negative, digits cs), afterDigits cs) else .error .malformed

/-- The digits after the point. -/
def readFraction (cs : List Char) : Except Fault (List Char × List Char) :=
  if (digits cs).isEmpty then .error (if cs.isEmpty then .truncated else .malformed)
  else .ok (digits cs, afterDigits cs)

/-- A number from its parts, read as a double. Digits that do not fit into 64 bits count by their
place alone, and an exponent beyond 31 bits gives zero or is refused. -/
def doubleOf (negative : Bool) (whole fraction : List Char) (exponent : Option (Bool × List Char)) :
    Except Fault Number := do
  let (m, beyond) := takeDigits 0 whole
  let (m, dropped) := takeDigits m fraction
  let start : Int := (beyond.length : Int) - ((fraction.length : Int) - dropped.length)
  let magnitude : Float ← match exponent with
    | none => scale m start
    | some (down, ds) =>
      let e := naturalOf ds
      if e < 0x80000000 then scale m (if down then start - e else start + e)
      else if m ≠ 0 ∧ ¬ down then .error .malformed
      else .ok 0
  .ok (.double (if negative then -magnitude else magnitude).toBits)

/-- A number whose sign is taken. A literal with neither point nor exponent is a whole number if it
fits and is not a negative zero. -/
def readUnsigned (negative : Bool) : Reader Number
  | [] => .error .truncated
  | c :: rest =>
    let cs := c :: rest
    if !c.isDigit then .error .malformed
    else if c = '0' ∧ (rest.head?.any Char.isDigit) then .error .malformed
    else
      let whole := digits cs
      match afterDigits cs with
      | '.' :: rest => do
        let (fraction, rest) ← readFraction rest
        let (exponent, rest) ← readMark rest
        .ok (← doubleOf negative whole fraction exponent, rest)
      | rest => do
        let (exponent, rest) ← readMark rest
        let n := naturalOf whole
        if exponent.isSome then .ok (← doubleOf negative whole [] exponent, rest)
        else if h : !negative ∧ n < 0x10000000000000000 then
          .ok (.integer ⟨n, by omega⟩, rest)
        else if h : negative ∧ n ≠ 0 ∧ n ≤ 0x8000000000000000 then
          .ok (.integer ⟨-n, by omega⟩, rest)
        else .ok (← doubleOf negative whole [] none, rest)
where
  /-- An exponent, if its mark comes next. -/
  readMark (cs : List Char) : Except Fault (Option (Bool × List Char) × List Char) :=
    match cs with
    | c :: rest =>
      if c = 'e' ∨ c = 'E' then do
        let (exponent, rest) ← readExponent rest
        .ok (some exponent, rest)
      else .ok (none, cs)
    | [] => .ok (none, cs)

/-- A number that begins with the given character. -/
def readNumber (c : Char) (rest : List Char) : Except Fault (Number × List Char) :=
  if c = '-' then readUnsigned true rest else readUnsigned false (c :: rest)

def startsNumber (c : Char) : Bool := c = '-' || c.isDigit

/-- Skips a number. Text that ends inside it is malformed. -/
def skipNumber (c : Char) (rest : List Char) : Except Fault (List Char) :=
  let start := if c = '-' then rest else c :: rest
  match start with
  | [] => .error .malformed
  | d :: rest =>
    if !d.isDigit then .error .malformed
    else if d = '0' ∧ rest.head?.any Char.isDigit then .error .malformed
    else match afterDigits (d :: rest) with
      | '.' :: rest =>
        if (digits rest).isEmpty then .error .malformed else skipMark (afterDigits rest)
      | rest => skipMark rest
where
  skipMark (cs : List Char) : Except Fault (List Char) :=
    match cs with
    | c :: rest =>
      if c = 'e' ∨ c = 'E' then
        match readExponent rest with
        | .ok (_, rest) => .ok rest
        | .error _ => .error .malformed
      else .ok cs
    | [] => .ok cs

/-! ## Arrays and objects -/

/-- Moves to the next item of an array; gives nothing at its closing bracket. -/
def nextItem? (first : Bool) (cs : List Char) : Except Fault (Option (List Char)) :=
  match skipBlank cs with
  | [] => .error .truncated
  | c :: rest =>
    if c = ']' then .ok none
    else if first then .ok (some (c :: rest))
    else if c = ',' then
      match skipBlank rest with
      | [] => .error .truncated
      | c :: rest => if c = ']' then .error .malformed else .ok (some (c :: rest))
    else .error .malformed

def closeArray (cs : List Char) : Except Fault (List Char) :=
  match skipBlank cs with
  | [] => .error .truncated
  | c :: rest => if c = ']' then .ok rest else .error .malformed

/-- Moves to the next field of an object and reads its name after the opening quote; gives nothing
at the closing brace. -/
def nextKey? {κ : Type} (name : Reader κ) (first : Bool) (cs : List Char) :
    Except Fault (Option (κ × List Char)) :=
  match skipBlank cs with
  | [] => .error .truncated
  | c :: rest =>
    if c = '\x7d' then .ok none
    else if first then key c rest
    else if c = ',' then
      match skipBlank rest with
      | [] => .error .truncated
      | c :: rest => key c rest
    else .error .malformed
where
  key (c : Char) (rest : List Char) : Except Fault (Option (κ × List Char)) :=
    if c = '"' then some <$> name rest else .error .malformed

def closeObject (cs : List Char) : Except Fault (List Char) :=
  match skipBlank cs with
  | [] => .error .truncated
  | c :: rest => if c = '\x7d' then .ok rest else .error .malformed

/-- Reads items until none is left. -/
def readItems {α : Type} (item : Reader α) : Nat → Bool → Reader (List α)
  | 0, _, _ => .error .truncated
  | n + 1, first, cs => do
    match ← nextItem? first cs with
    | none => .ok ([], cs)
    | some cs =>
      let (a, cs) ← item cs
      let (as, cs) ← readItems item n false cs
      .ok (a :: as, cs)

/-- Reads the fields of an object one after another into a state; `field` reads what follows a
name, from the colon on. -/
def readFields {σ : Type} (field : String → σ → Reader σ) : Nat → Bool → σ → Reader σ
  | 0, _, _, _ => .error .truncated
  | n + 1, first, s, cs => do
    match ← nextKey? readString first cs with
    | none => .ok (s, cs)
    | some (k, cs) =>
      let (s, cs) ← field k s cs
      readFields field n false s cs

/-- The items of an array whose opening bracket is taken. -/
def arrayBody {α : Type} (item : Reader α) : Reader (List α) := fun cs => do
  let (items, cs) ← readItems item (cs.length + 1) true cs
  .ok (items, ← closeArray cs)

/-- The fields of an object whose opening brace is taken. -/
def objectBody {σ : Type} (field : String → σ → Reader σ) (start : σ) : Reader σ := fun cs => do
  let (s, cs) ← readFields field (cs.length + 1) true start cs
  .ok (s, ← closeObject cs)

/-- A field whose value is written under its name, over an earlier one. -/
def entryField {α : Type} (item : Reader α) (k : String) (d : Dict α) : Reader (Dict α) :=
  fun cs => do
    let (a, cs) ← item (← expectColon cs)
    .ok (d.insert k a, cs)

/-! ## Whole values -/

/-- Values nest less deep than this. -/
def depthLimit : Nat := 128

/-- A value nested less than `depth` deep. -/
def readValue : Nat → Reader Value
  | 0, _ => .error .malformed
  | depth + 1, cs =>
    match skipBlank cs with
    | [] => .error .truncated
    | c :: rest =>
      if c = 'n' then do .ok (.null, ← expect ['u', 'l', 'l'] rest)
      else if c = 't' then do .ok (.bool true, ← expect ['r', 'u', 'e'] rest)
      else if c = 'f' then do .ok (.bool false, ← expect ['a', 'l', 's', 'e'] rest)
      else if startsNumber c then do
        let (n, rest) ← readNumber c rest
        .ok (.number n, rest)
      else if c = '"' then do
        let (s, rest) ← readString rest
        .ok (.string s, rest)
      else if c = '[' then
        if depth = 0 then .error .malformed else do
        let (items, rest) ← arrayBody (readValue depth) rest
        .ok (.array items, rest)
      else if c = '\x7b' then
        if depth = 0 then .error .malformed else do
        let (fields, rest) ← objectBody (entryField (readValue depth)) ∅ rest
        .ok (.ofDict fields, rest)
      else .error .malformed

/-- Reads a text that holds one thing and blanks. -/
def Reader.all {α : Type} (r : Reader α) (text : String) : Except Fault α := do
  let (a, rest) ← r text.toList
  if (skipBlank rest).isEmpty then .ok a else .error .malformed

/-- Reads the thing a text begins with; what follows does not matter. -/
def Reader.leading {α : Type} (r : Reader α) (text : String) : Except Fault α :=
  return (← r text.toList).1

/-- The value that a text holds. -/
def read (text : String) : Except Fault Value := Reader.all (readValue depthLimit) text

/-! ## Skipping -/

/-- Passes over a string whose opening quote is taken. -/
def passString : Reader Unit := fun cs => do .ok ((), ← skipString (cs.length + 1) cs)

mutual

def skipValue : Nat → List Char → Except Fault (List Char)
  | 0, _ => .error .truncated
  | n + 1, cs =>
    match skipBlank cs with
    | [] => .error .truncated
    | c :: rest =>
      if c = 'n' then expect ['u', 'l', 'l'] rest
      else if c = 't' then expect ['r', 'u', 'e'] rest
      else if c = 'f' then expect ['a', 'l', 's', 'e'] rest
      else if startsNumber c then skipNumber c rest
      else if c = '"' then skipString (rest.length + 1) rest
      else if c = '[' then skipItems n true rest
      else if c = '\x7b' then skipFields n true rest
      else .error .malformed

def skipItems : Nat → Bool → List Char → Except Fault (List Char)
  | 0, _, _ => .error .truncated
  | n + 1, first, cs => do
    match ← nextItem? first cs with
    | none => closeArray cs
    | some cs =>
      let cs ← skipValue n cs
      skipItems n false cs

def skipFields : Nat → Bool → List Char → Except Fault (List Char)
  | 0, _, _ => .error .truncated
  | n + 1, first, cs => do
    match ← nextKey? passString first cs with
    | none => closeObject cs
    | some ((), cs) =>
      let cs ← skipValue n (← expectColon cs)
      skipFields n false cs

end

/-- Skips one value of any depth. -/
def skip : Reader Unit := fun cs => do .ok ((), ← skipValue (2 * cs.length + 2) cs)

end TaskStack.Json
