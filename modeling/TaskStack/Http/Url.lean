import TaskStack.Text.Blank

/-!
# Paths of requests

A text that is appended to the address of a server becomes a path, a query and a fragment. Slashes
part the path into segments, of which `.` stays where it is and `..` goes one up, though never out
of a drive; a question mark begins the query and a hash sign the fragment. Characters that cannot
stand in an address are written as the bytes of their UTF-8 form, each a percent sign and two
digits. On the way back `decode?` turns such triples into bytes again.
-/

namespace TaskStack.Http

def hexUpper (n : Nat) : Char := (Nat.digitChar (n % 16)).toUpper

def percent (b : UInt8) : List Char := ['%', hexUpper (b.toNat / 16), hexUpper b.toNat]

/-- The bytes of a character, each written as a triple. -/
def percentChar (c : Char) : List Char :=
  (String.singleton c).toUTF8.data.toList.flatMap percent

/-- Writes the characters outside ASCII, the controls, and those listed as triples. -/
def percentEncode (reserved : List Char) (cs : List Char) : List Char :=
  cs.flatMap fun c =>
    if c.toNat ≤ 0x1F || c.toNat ≥ 0x7F || reserved.contains c then percentChar c else [c]

def fragmentReserved : List Char := [' ', '"', '<', '>', '\x60']
def pathReserved : List Char := fragmentReserved ++ ['#', '?', '\x7b', '\x7d']
def queryReserved : List Char := [' ', '"', '#', '<', '>', '\'']

structure Url where
  segments : List (List Char)
  query : Option (List Char) := none
  fragment : Option (List Char) := none
deriving DecidableEq, Repr

namespace Url

def isSlash (c : Char) : Bool := c = '/' || c = '\\'

/-- Parts a path at its slashes. -/
def splitSegments : List Char → List (List Char)
  | [] => [[]]
  | c :: rest =>
    if isSlash c then [] :: splitSegments rest
    else match splitSegments rest with
      | [] => [[c]]
      | s :: more => (c :: s) :: more

def dots : List (List Char) := [".".toList, "%2e".toList]

def isDot (s : List Char) : Bool := dots.contains (s.map Char.toLower)

def isDoubleDot (s : List Char) : Bool :=
  dots.any fun a => dots.any fun b => s.map Char.toLower = a ++ b

/-- A letter with a colon or a bar: the name of a drive. -/
def isDrive : List Char → Bool
  | [a, b] => a.isAlpha && (b = ':' || b = '|')
  | _ => false

/-- One segment up, of segments in reverse. A drive is not left. -/
def up : List (List Char) → List (List Char)
  | s :: done => if isDrive s then s :: done else done
  | [] => []

/-- Goes through segments, with those gone into so far in reverse. A dot at the end leaves an empty
segment. -/
def walk : List (List Char) → List (List Char) → List (List Char)
  | done, [] => done.reverse
  | done, [s] =>
    if isDoubleDot s then ([] :: up done).reverse
    else if isDot s then ([] :: done).reverse
    else (percentEncode pathReserved s :: done).reverse
  | done, s :: rest =>
    if isDoubleDot s then walk (up done) rest
    else if isDot s then walk done rest
    else walk (percentEncode pathReserved s :: done) rest

/-- Blanks and controls at the end of an address do not belong to it, nor do tabs and line ends
inside. -/
def clean (cs : List Char) : List Char :=
  ((cs.reverse.dropWhile fun c => c.toNat ≤ 0x20).reverse).filter fun c =>
    c != '\t' && c != '\n' && c != '\r'

/-- The address of what stands after the address of a server. -/
def ofText (text : String) : Url :=
  let cs := clean text.toList
  let front := cs.takeWhile (· != '#')
  let fragment := (cs.dropWhile (· != '#')).tail?
  let path := front.takeWhile (· != '?')
  let query := (front.dropWhile (· != '?')).tail?
  let segments := match path with
    | c :: rest => splitSegments (if isSlash c then rest else c :: rest)
    | [] => [[]]
  { segments := walk [] segments
    query := query.map (percentEncode queryReserved)
    fragment := fragment.map (percentEncode fragmentReserved) }

def path (u : Url) : List Char := u.segments.flatMap fun s => '/' :: s

/-- What a request for the address asks for: all but the fragment. -/
def target (u : Url) : String :=
  String.ofList (u.path ++ (u.query.map ('?' :: ·)).getD [])

/-- The whole address without its server. -/
def text (u : Url) : String :=
  u.target ++ String.ofList ((u.fragment.map ('#' :: ·)).getD [])

example : (ofText "/a/b/../c?d").text = "/a/c?d" := by decide +kernel
example : (ofText "/a/C:/x/../../b").text = "/a/C:/b" := by decide +kernel

end Url

/-! ## Decoding -/

def hexValue? (c : Char) : Option Nat :=
  if '0' ≤ c ∧ c ≤ '9' then some (c.toNat - '0'.toNat)
  else if 'a' ≤ c ∧ c ≤ 'f' then some (c.toNat - 'a'.toNat + 10)
  else if 'A' ≤ c ∧ c ≤ 'F' then some (c.toNat - 'A'.toNat + 10)
  else none

/-- The bytes of a text in which triples stand for bytes; a percent sign without two digits stands
for itself. -/
def percentBytes : List Char → List UInt8
  | [] => []
  | c :: rest =>
    if c = '%' then
      match rest with
      | a :: b :: more =>
        match hexValue? a, hexValue? b with
        | some x, some y => UInt8.ofNat (x * 16 + y) :: percentBytes more
        | _, _ => '%'.toUInt8 :: percentBytes (a :: b :: more)
      | rest => '%'.toUInt8 :: percentBytes rest
    else (String.singleton c).toUTF8.data.toList ++ percentBytes rest

/-- The text that a segment stands for, if its bytes are UTF-8. -/
def decode? (segment : List Char) : Option String :=
  String.fromUTF8? ⟨(percentBytes segment).toArray⟩

end TaskStack.Http
