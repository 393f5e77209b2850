import Mathlib
import TaskStack.Proofs.Call.Resolution
import TaskStack.Proofs.Catalogue.Tasks

/-!
# The arithmetic of the catalogue

The bodies of the catalogue work on integers of 64 bits. On its way to a result such a body comes to
one value after another: the sums of the integers of a grid from the left, a product, or the square
that a submitter has made of a parameter before. If all of them fit, the result is exact. If one
does not, the first such value ends the call in a panic, even if the result would fit again.

**Theorem (`performAll_exact`).** In any run that declares the catalogue and brings local engines, a
call of one of its tasks is exact or panics so, whatever calls and panics there were before.

* `Exact`: what a computation answers that comes to given values.
* `follow`: the computation itself, to which the bodies are equal.
-/

namespace TaskStack

/-! ## Integer arguments -/

namespace Args

/-- What a call passes for a parameter, by name or by position. -/
def given? (a : Args) (s : Schema) (name : String) : Option Value :=
  (a.named.get? name).or ((s.position? name).bind fun index => a.positional[index]?)

end Args

namespace Bound

variable {s : Schema} {a : Args} {name : String}

/-- A body finds what the call passes, or else the default. -/
theorem get?_of_given (hname : Marker.isMarker name = false) (hs : s.contains name = true) :
    (of s a).get? name = (a.given? s name).or ((s.get? name).bind (·.default)) := by
  obtain ⟨index, hindex⟩ := Option.isSome_iff_exists.1 hs
  simp [get?_of, Args.given?, hname, hindex, Option.or_assoc]

theorem int64_of_get? {b : Bound} {n : Int64} (h : b.get? name = some (.int n)) :
    b.int64 name = .ok n := by
  have hrequire : b.require name = .ok (.int n) := by rw [require, h]
  simp only [int64, hrequire, bind, Except.bind, Value.int64?_int]

/-- A body reads the integer that the call passes, or else the default. -/
theorem int64_of_given {n : Option Int64} {d : Int64} (hname : Marker.isMarker name = false)
    (hs : s.contains name = true) (h : a.given? s name = n.map Value.int)
    (hdefault : n = none → (s.get? name).bind (·.default) = some (.int d)) :
    (of s a).int64 name = .ok (n.getD d) := by
  refine int64_of_get? ?_
  rw [get?_of_given hname hs, h]
  cases n with
  | some m => rfl
  | none => exact hdefault rfl

end Bound

namespace Catalogue

/-! ## Exact or a panic -/

inductive Operation where
  | addition
  | multiplication
deriving DecidableEq, Repr

/-- What is said of a result that does not fit. -/
def Operation.overflow : Operation → String
  | .addition => "attempt to add with overflow"
  | .multiplication => "attempt to multiply with overflow"

/-- **Exact or a panic.** A computation comes to the values one after another, each by an operation.
It answers the result if all of them fit, and panics at the first that does not. -/
structure Exact (values : List (Operation × Int)) (result : Int) (answer : Except Fault Value) :
    Prop where
  value : (∀ v ∈ values, Int64.Fits v.2) → ∃ n : Int64, n.toInt = result ∧ answer = .ok (.int n)
  panic : ∀ earlier v later, values = earlier ++ v :: later → (∀ u ∈ earlier, Int64.Fits u.2) →
    ¬ Int64.Fits v.2 → answer = .error (.panic v.1.overflow)

/-- Comes to the values one after another. -/
def follow : List (Operation × Int) → Int → Except Abort Int
  | [], result => .ok result
  | v :: rest, result =>
    if Int64.Fits v.2 then follow rest result else .error (.panic v.1.overflow)

theorem follow_of_fits {values : List (Operation × Int)} {result : Int}
    (h : ∀ v ∈ values, Int64.Fits v.2) : follow values result = .ok result := by
  induction values with
  | nil => rfl
  | cons v rest ih =>
    obtain ⟨hv, hrest⟩ := List.forall_mem_cons.1 h
    rw [follow, if_pos hv, ih hrest]

/-- A computation goes on with its result. -/
theorem follow_bind (values : List (Operation × Int)) (n : Int)
    (more : Int → List (Operation × Int)) (result : Int → Int) :
    (follow values n >>= fun m => follow (more m) (result m)) =
      follow (values ++ more n) (result n) := by
  induction values with
  | nil => rfl
  | cons v rest ih =>
    rw [List.cons_append, follow, follow]
    split
    · exact ih
    · rfl

/-- What comes to the values is exact or ends in a panic. -/
theorem exact_of_follow {values : List (Operation × Int)} {result : Int}
    {computed : Except Abort Int64} (h : Int64.toInt <$> computed = follow values result) :
    Exact values result ((Value.int <$> computed).mapError Abort.fault) where
  value hfits := by
    rw [follow_of_fits hfits] at h
    cases computed with
    | error e => cases h
    | ok n => exact ⟨n, Except.ok.inj h, rfl⟩
  panic := by
    rintro earlier v later rfl hearlier hv
    have hlater : follow (v :: later) result = .error (.panic v.1.overflow) := if_neg hv
    rw [← follow_bind earlier result (fun _ => v :: later) (fun _ => result),
      follow_of_fits hearlier] at h
    change _ = follow (v :: later) result at h
    rw [hlater] at h
    cases computed with
    | error e =>
      cases h
      rfl
    | ok n => cases h

/-- One computation after another. -/
theorem toInt_bind {values : List (Operation × Int)} {n : Int} {computed : Except Abort Int64}
    {next : Int64 → Except Abort Int64} (more : Int → List (Operation × Int)) (result : Int → Int)
    (h : Int64.toInt <$> computed = follow values n)
    (hnext : ∀ m : Int64, Int64.toInt <$> next m = follow (more m.toInt) (result m.toInt)) :
    Int64.toInt <$> (computed >>= next) = follow (values ++ more n) (result n) := by
  rw [← follow_bind, ← h, map_bind, bind_map_left]
  simp only [hnext]

/-! ## Operations and sums -/

/-- An operation panics when its exact result does not fit. -/
theorem toInt_checked (o : Operation) (n : Int) :
    Int64.toInt <$> (match Int64.ofInt? n with
      | some m => .ok m
      | none => .error (.panic o.overflow) : Except Abort Int64) = follow [(o, n)] n := by
  rw [follow]
  cases hn : Int64.ofInt? n with
  | some m =>
    obtain rfl := Int64.ofInt?_eq_some_iff.1 hn
    rw [if_pos (Int64.fits_toInt m)]
    rfl
  | none =>
    rw [if_neg (Int64.ofInt?_eq_none_iff.1 hn)]
    rfl

theorem toInt_add (a b : Int64) : Int64.toInt <$> add a b =
    follow [(.addition, a.toInt + b.toInt)] (a.toInt + b.toInt) := toInt_checked .addition _

theorem toInt_multiply (a b : Int64) : Int64.toInt <$> multiply a b =
    follow [(.multiplication, a.toInt * b.toInt)] (a.toInt * b.toInt) :=
  toInt_checked .multiplication _

/-- The sums that adding up integers from the left comes to. -/
def sums (ints : List Int) : List (Operation × Int) :=
  ints.inits.tail.map fun beginning => (.addition, beginning.sum)

theorem sums_append_singleton (ints : List Int) (n : Int) :
    sums (ints ++ [n]) = sums ints ++ [(.addition, ints.sum + n)] := by
  have hne : ints.inits ≠ [] := by cases ints <;> simp
  simp [sums, List.inits_append, List.tail_append_of_ne_nil hne]

theorem toInt_foldlM_add (ints : List Int64) : Int64.toInt <$> ints.foldlM add 0 =
    follow (sums (ints.map Int64.toInt)) (ints.map Int64.toInt).sum := by
  induction ints using List.reverseRecOn with
  | nil => rfl
  | append_singleton ints n ih =>
    rw [List.foldlM_append, List.map_append, List.map_singleton, sums_append_singleton,
      List.sum_append, List.sum_singleton]
    simp only [List.foldlM_cons, List.foldlM_nil, bind_pure]
    exact toInt_bind (fun m => [(.addition, m + n.toInt)]) (fun m => m + n.toInt) ih
      fun m => toInt_add m n

/-! ## The bodies -/

variable {a : Args} {v x : Int64} {k : Option Int64} {grid : List Value}

theorem incrementBody_of_given
    (hv : a.given? increment.info.schema "value" = some (.int v)) :
    incrementBody (Bound.of increment.info.schema a) = add v 1 := by
  have hvalue : (Bound.of increment.info.schema a).int64 "value" = .ok v :=
    Bound.int64_of_given (n := some v) (d := 0) (by decide) (by decide) hv nofun
  rw [incrementBody, hvalue]
  rfl

theorem solveBody_of_given (hgrid : a.given? solve.info.schema "grid" = some (.array grid))
    (hk : a.given? solve.info.schema "iterations" = k.map Value.int) :
    solveBody (Bound.of solve.info.schema a) =
      sum grid >>= fun total => multiply total (k.getD 10) := by
  have hitems : (Bound.of solve.info.schema a).require "grid" = .ok (.array grid) := by
    rw [Bound.require, Bound.get?_of_given (by decide) (by decide), hgrid]
    rfl
  have hiterations : (Bound.of solve.info.schema a).int64 "iterations" = .ok (k.getD 10) :=
    Bound.int64_of_given (by decide) (by decide) hk fun _ => rfl
  rw [solveBody, hitems, hiterations]
  rfl

theorem toInt_solveBody (hgrid : a.given? solve.info.schema "grid" = some (.array grid))
    (hk : a.given? solve.info.schema "iterations" = k.map Value.int) :
    let ints := (grid.filterMap Value.int64?).map Int64.toInt
    let product := ints.sum * (k.getD 10).toInt
    Int64.toInt <$> solveBody (Bound.of solve.info.schema a) =
      follow (sums ints ++ [(.multiplication, product)]) product := by
  intro ints product
  rw [solveBody_of_given hgrid hk]
  exact toInt_bind (fun total => [(.multiplication, total * (k.getD 10).toInt)])
    (fun total => total * (k.getD 10).toInt) (toInt_foldlM_add _)
    fun total => toInt_multiply total (k.getD 10)

theorem scaleBody_of_int64 {b : Bound} {m : Int64} (hx : b.int64 "x" = .ok x)
    (hm : b.int64 "factor" = .ok m) : scaleBody b = multiply x m := by
  rw [scaleBody, hx, hm]
  rfl

theorem int64_factor (hk : a.given? scale.info.schema "factor" = k.map Value.int) :
    (Bound.of scale.info.schema a).int64 "factor" = .ok (k.getD 3) :=
  Bound.int64_of_given (by decide) (by decide) hk fun _ => rfl

theorem squareX_apply_int (x : Int64) : squareX.apply (.int x) = Value.int <$> multiply x x := by
  simp only [Transform.apply, squareX, square, Value.int64?_int]

/-! ## The calls -/

/-- Without transformation layers the role does not matter. -/
theorem meaning_of_specs?_eq_none {d : Declaration} (h : d.layers.filterMap Layer.specs? = [])
    (f : Bound → Except Abort Value) (role : Role) (a : Args) :
    d.meaning f role a = (f (Bound.of d.info.schema a)).mapError Abort.fault := by
  have hforce : inForce d.layers a.transforms = [] := by rw [inForce, h]
  rw [Declaration.meaning, hforce]
  exact ite_self _

theorem meaning_scale_of_not_submitter (hx : a.given? scale.info.schema "x" = some (.int x))
    (hk : a.given? scale.info.schema "factor" = k.map Value.int) {role : Role}
    (hrole : role ≠ .submitter) :
    scale.meaning (fun b => Value.int <$> scaleBody b) role a =
      (Value.int <$> multiply x (k.getD 3)).mapError Abort.fault := by
  have hvalue : (Bound.of scale.info.schema a).int64 "x" = .ok x :=
    Bound.int64_of_given (n := some x) (d := 0) (by decide) (by decide) hx nofun
  rw [Declaration.meaning, if_neg hrole, scaleBody_of_int64 hvalue (int64_factor hk)]

/-- In a submitter `scale` squares its parameter before its body runs. -/
theorem meaning_scale_submitter (ha : a.transforms = [])
    (hx : a.given? scale.info.schema "x" = some (.int x))
    (hk : a.given? scale.info.schema "factor" = k.map Value.int) :
    scale.meaning (fun b => Value.int <$> scaleBody b) .submitter a =
      (Value.int <$> (multiply x x >>= fun y => multiply y (k.getD 3))).mapError Abort.fault := by
  have hseen : (Bound.of scale.info.schema a).get? "x" = some (.int x) := by
    rw [Bound.get?_of_given (by decide) (by decide), hx]
    rfl
  obtain ⟨site, v, hlocate⟩ := Args.exists_locate (a := a)
    (show scale.info.schema.contains "x" = true by decide)
  obtain rfl : v = .int x := by
    rw [Args.eq_get?_of_locate (by decide) hlocate, hseen]
    rfl
  have hthrough : a.throughLayers scale.info (inForce scale.layers a.transforms) =
      ((squareX.apply (.int x)).mapError Abort.fault).map (a.replace site "x") := by
    have hforce : inForce scale.layers a.transforms = [[squareX]] := by rw [ha]; rfl
    rw [hforce, Args.throughLayers, Args.throughLayer, if_neg (by simp), Args.transformed]
    simp only [show squareX.param = "x" from rfl, hlocate]
    cases squareX.apply (.int x) <;> rfl
  rw [Declaration.meaning, if_pos rfl, hthrough, squareX_apply_int]
  cases multiply x x with
  | error e => rfl
  | ok y =>
    have hfactor : (Bound.of scale.info.schema (a.replace site "x" (.int y))).int64 "factor" =
        .ok (k.getD 3) := by
      rw [← int64_factor hk, Bound.int64, Bound.int64, Bound.require, Bound.require,
        Bound.get?_replace_of_ne hlocate _ (by decide)]
    have hbody := scaleBody_of_int64
      (Bound.int64_of_get? (Bound.get?_replace_self (by decide) hlocate (.int y))) hfactor
    change ((Value.int <$> scaleBody (Bound.of scale.info.schema (a.replace site "x" (.int y))) :
      Except Abort Value)).mapError Abort.fault = _
    rw [hbody]
    rfl

/-! ## All of them -/

/-- **The arithmetic of the catalogue is exact or ends in a panic,** in every role, at any point of
a run. The integers of a grid are those of its elements that fit into 64 bits with a sign; others
do not count. -/
theorem performAll_exact {commands : List Command} (hc : ∀ c ∈ commands, c.Suits (· ∈ tasks))
    {id : TaskId} {t : Task} (ht : (({} : Session).performAll commands).task? id = some t)
    (hattached : (({} : Session).performAll commands).Attached) (a : Args) (depth : Nat) :
    let s := ({} : Session).performAll commands
    let answer := (Session.callWithin (depth + 1) id a s).1
    (t.declaration = increment → ∀ v : Int64,
      a.given? increment.info.schema "value" = some (.int v) →
      Exact [(.addition, v.toInt + 1)] (v.toInt + 1) answer) ∧
    (t.declaration = solve → ∀ (grid : List Value) (k : Option Int64),
      a.given? solve.info.schema "grid" = some (.array grid) →
      a.given? solve.info.schema "iterations" = k.map Value.int →
        let ints := (grid.filterMap Value.int64?).map Int64.toInt
        let product := ints.sum * (k.getD 10).toInt
        Exact (sums ints ++ [(.multiplication, product)]) product answer) ∧
    (t.declaration = scale → a.transforms = [] → ∀ (x : Int64) (k : Option Int64),
      a.given? scale.info.schema "x" = some (.int x) →
      a.given? scale.info.schema "factor" = k.map Value.int →
        if s.context.role = .submitter then
          let product := x.toInt * x.toInt * (k.getD 3).toInt
          Exact [(.multiplication, x.toInt * x.toInt), (.multiplication, product)] product answer
        else
          let product := x.toInt * (k.getD 3).toInt
          Exact [(.multiplication, product)] product answer) := by
  intro s answer
  have hs : s.Orderly (· ∈ tasks) := (Session.orderly_empty _).performAll hc
  have hmeaning {d : Declaration} {f : Bound → Except Abort Value} (hd : t.declaration = d)
      (hf : d.Computes f) : answer = d.meaning f s.context.role a := by
    subst hd
    exact hs.callWithin compatible ht hf hattached depth a
  refine ⟨?_, ?_, ?_⟩
  · intro hd v hv
    rw [hmeaning hd computes_increment, meaning_of_specs?_eq_none rfl, incrementBody_of_given hv]
    exact exact_of_follow (toInt_add v 1)
  · intro hd grid k hgrid hk ints product
    rw [hmeaning hd computes_solve, meaning_of_specs?_eq_none rfl]
    exact exact_of_follow (toInt_solveBody hgrid hk)
  · intro hd ha x k hx hk
    rw [hmeaning hd computes_scale]
    split
    · next hrole =>
      rw [hrole, meaning_scale_submitter ha hx hk]
      exact exact_of_follow (toInt_bind (fun y => [(.multiplication, y * (k.getD 3).toInt)])
        (fun y => y * (k.getD 3).toInt) (toInt_multiply x x)
        fun y => toInt_multiply y (k.getD 3))
    · next hrole =>
      rw [meaning_scale_of_not_submitter hx hk hrole]
      exact exact_of_follow (toInt_multiply x (k.getD 3))

/-- A product that does not fit has ended a call in a worker. Called again, now in a submitter, the
task answers. -/
theorem performAll_exact_again :
    let large : Args := .ofPositional [.int Int64.maxValue]
    let commands : List Command := [.declare "scale" scale, .startWorker, .call 0 large,
      .addEngine {}, .stop, .startSubmitter 0]
    let s := ({} : Session).performAll commands
    (Session.callWithin 1 0 large s).1 = .error (.panic "attempt to multiply with overflow") ∧
      (Session.callWithin 1 0 (.ofPositional [.int 4]) s).1 = .ok (.int 48) := by
  intro large commands s
  have hc : ∀ c ∈ commands, c.Suits (· ∈ tasks) := by
    have hscale : scale ∈ tasks := mem_tasks_iff.2 (.inr (.inr rfl))
    have hengine : (Command.addEngine {}).Suits (· ∈ tasks) := ⟨⟨rfl, rfl, rfl⟩, nofun⟩
    simp only [commands, List.forall_mem_cons]
    exact ⟨hscale, trivial, trivial, hengine, trivial, trivial, nofun⟩
  have hattached : s.Attached := fun _ => ⟨0, rfl, Nat.zero_lt_one⟩
  have ht : s.task? 0 = some (.new scale) := rfl
  have hlarge := (performAll_exact hc ht hattached large 0).2.2 rfl rfl Int64.maxValue none rfl rfl
  have hfour := (performAll_exact hc ht hattached (.ofPositional [.int 4]) 0).2.2 rfl rfl 4 none
    rfl rfl
  obtain ⟨n, hn, hanswer⟩ := hfour.value (by decide)
  obtain rfl : n = 48 := Int64.toInt_inj.1 hn
  exact ⟨hlarge.panic [] _ _ rfl nofun (by decide), hanswer⟩

end Catalogue
end TaskStack
