import TaskStack.Dict
import TaskStack.Integer.Bounded

/-!
# JSON values

Arguments, options and results are JSON values. A number is a whole number, when its literal was
one and fits, or a double, kept as its 64 bits. The fields of an object stand in increasing order of
their names; `Value.ofDict` and `Value.dict?` go between objects and maps.
-/

namespace TaskStack

/-- The whole numbers that fit into 64 bits, with a sign or without. -/
abbrev Whole := { n : Int // -0x8000000000000000 ≤ n ∧ n < 0x10000000000000000 }

/-- A JSON number. -/
inductive Number where
  | integer (n : Whole)
  | double (bits : UInt64)
deriving DecidableEq, Repr

inductive Value where
  | null
  | bool (b : Bool)
  | number (n : Number)
  | string (s : String)
  | array (items : List Value)
  | object (fields : List (String × Value))
deriving Repr

namespace Value

instance : Inhabited Value := ⟨.null⟩

/-- The value of an integer with a sign. -/
def int (n : Int64) : Value :=
  .number (.integer ⟨n.toInt, n.le_toInt, Int.lt_trans n.toInt_lt (by decide)⟩)

/-- The whole number, if it is one that fits into 64 bits with a sign. -/
def int64? : Value → Option Int64
  | .number (.integer n) => Int64.ofInt? n.val
  | _ => none

def string? : Value → Option String
  | .string s => some s
  | _ => none

def array? : Value → Option (List Value)
  | .array items => some items
  | _ => none

def ofDict (d : Dict Value) : Value := .object d.entries

/-- The fields of an object; of a name that stands twice, the last field. -/
def dict? : Value → Option (Dict Value)
  | .object fields => some (Dict.ofList fields)
  | _ => none

/-- The fields of an object, and none of any other value. -/
def options (v : Value) : Dict Value := v.dict?.getD ∅

@[simp] theorem int64?_int (n : Int64) : (int n).int64? = some n := Int64.ofInt?_toInt n

theorem integer_eq_int_iff {w : Whole} {n : Int64} :
    number (.integer w) = int n ↔ n.toInt = w.val := by
  rw [int, number.injEq, Number.integer.injEq, Subtype.ext_iff, eq_comm]

/-- A value reads as an integer with a sign exactly when it is the value of that integer. -/
theorem int64?_eq_some_iff {v : Value} {n : Int64} : v.int64? = some n ↔ v = .int n := by
  constructor
  · intro h
    unfold int64? at h
    split at h
    · exact integer_eq_int_iff.2 (Int64.ofInt?_eq_some_iff.1 h)
    · cases h
  · rintro rfl
    exact int64?_int n

theorem int_inj {n m : Int64} : int n = int m ↔ n = m := by
  rw [← int64?_eq_some_iff, int64?_int, Option.some.injEq]

end Value

/-- Options of a layer or of a transformation, and arguments passed by name. -/
abbrev Options := Dict Value

end TaskStack
