import TaskStack.Json.Reader

/-!
# Reading values of a given shape

Readers for the shapes that messages are made of: strings, flags, lists, maps, names out of a fixed
set, and records. A record is an object whose known fields come at most once and whose other fields
are skipped, or an array that holds exactly its fields in order. A field that may be absent may also
be `null`.
-/

namespace TaskStack.Json

/-- The fault of a value of another shape: the value is looked at just far enough to name it. -/
def mismatch : List Char → Fault
  | [] => .malformed
  | c :: rest =>
    if c = 'n' then faultOf (expect ['u', 'l', 'l'] rest)
    else if c = 't' then faultOf (expect ['r', 'u', 'e'] rest)
    else if c = 'f' then faultOf (expect ['a', 'l', 's', 'e'] rest)
    else if startsNumber c then faultOf (readNumber c rest)
    else if c = '"' then faultOf (readString rest)
    else if c = '[' ∨ c = '\x7b' then .mismatched
    else .malformed
where
  faultOf {α : Type} : Except Fault α → Fault
    | .error e => e
    | .ok _ => .mismatched

/-- Reads a value whose first character decides. -/
def onFirst {α : Type} (f : Char → List Char → Option (Except Fault (α × List Char))) : Reader α :=
  fun cs =>
    match skipBlank cs with
    | [] => .error .truncated
    | c :: rest => (f c rest).getD (.error (mismatch (c :: rest)))

def Reader.string : Reader String :=
  onFirst fun c rest => if c = '"' then some (readString rest) else none

def Reader.bool : Reader Bool :=
  onFirst fun c rest =>
    if c = 't' then some do .ok (true, ← expect ['r', 'u', 'e'] rest)
    else if c = 'f' then some do .ok (false, ← expect ['a', 'l', 's', 'e'] rest)
    else none

def Reader.null : Reader Unit :=
  onFirst fun c rest =>
    if c = 'n' then some do .ok ((), ← expect ['u', 'l', 'l'] rest) else none

/-- A value or `null`. -/
def Reader.option {α : Type} (r : Reader α) : Reader (Option α) := fun cs =>
  match skipBlank cs with
  | 'n' :: rest => do .ok (none, ← expect ['u', 'l', 'l'] rest)
  | cs => do
    let (a, cs) ← r cs
    .ok (some a, cs)

def Reader.list {α : Type} (item : Reader α) : Reader (List α) :=
  onFirst fun c rest => if c = '[' then some (arrayBody item rest) else none

/-- An object as a map; of a name that stands twice, the last value. -/
def Reader.dict {α : Type} (item : Reader α) : Reader (Dict α) :=
  onFirst fun c rest =>
    if c = '\x7b' then some (objectBody (entryField item) ∅ rest) else none

/-- A name out of a set: the name as a string, or an object with the name as its only field and
`null` as its value. -/
def Reader.name {α : Type} (named? : String → Option α) : Reader α := fun cs =>
  match skipBlank cs with
  | [] => .error .truncated
  | c :: rest =>
    if c = '"' then known (c :: rest)
    else if c = '\x7b' then do
      let (a, rest) ← key rest
      let ((), rest) ← Reader.null (← expectColon rest)
      match skipBlank rest with
      | [] => .error .truncated
      | c :: rest => if c = '\x7d' then .ok (a, rest) else .error .malformed
    else .error .malformed
where
  known (cs : List Char) : Except Fault (α × List Char) := do
    let (s, rest) ← Reader.string cs
    match named? s with
    | some a => .ok (a, rest)
    | none => .error .mismatched
  /-- The name as a field; nothing but a string can be one. -/
  key (cs : List Char) : Except Fault (α × List Char) :=
    match skipBlank cs with
    | [] => .error .truncated
    | c :: rest => if c = '"' then known (c :: rest) else .error .malformed

/-- A field of a record whose fields are gathered in a state: whether the state has it already, and
how it is read into the state. -/
structure RecordField (σ : Type) where
  name : String
  present : σ → Bool
  read : σ → Reader σ

def RecordField.of {σ β : Type} (name : String) (get : σ → Option β) (set : β → σ → σ)
    (r : Reader β) : RecordField σ :=
  { name
    present := fun s => (get s).isSome
    read := fun s cs => do
      let (b, cs) ← r cs
      .ok (set b s, cs) }

/-- Reads what follows the name of a field. -/
def recordField {σ : Type} (fields : List (RecordField σ)) (k : String) (s : σ) : Reader σ :=
  fun cs =>
    match fields.find? (·.name = k) with
    | some f => if f.present s then .error .mismatched else do f.read s (← expectColon cs)
    | none => do
      let ((), cs) ← skip (← expectColon cs)
      .ok (s, cs)

/-- Reads the fields one after another as items of an array. -/
def recordItems {σ : Type} : List (RecordField σ) → Bool → σ → Reader σ
  | [], _, s, cs => .ok (s, cs)
  | f :: fields, first, s, cs => do
    match ← nextItem? first cs with
    | none => .error .mismatched
    | some cs =>
      let (s, cs) ← f.read s cs
      recordItems fields false s cs

/-- A record; `complete?` says whether every field that has to be there is. -/
def Reader.record {σ α : Type} (fields : List (RecordField σ)) (start : σ)
    (complete? : σ → Option α) : Reader α :=
  onFirst fun c rest =>
    if c = '[' then some do
      let (s, rest) ← recordItems fields true start rest
      let a ← (complete? s).elim (.error .mismatched) .ok
      .ok (a, ← closeArray rest)
    else if c = '\x7b' then some do
      let (s, rest) ← readFields (recordField fields) (rest.length + 1) true start rest
      let a ← (complete? s).elim (.error .mismatched) .ok
      .ok (a, ← closeObject rest)
    else none

end TaskStack.Json
