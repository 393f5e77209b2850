import TaskStack.Session.Call

/-!
# Marker regions give the arguments back

Regions nest. What a step does to the arguments stays in the innermost region, and what an outer
region puts back lies further down in the stack of saved arguments, where no step reaches it before
the regions inside have ended. So when a region ends, the arguments are those with which it was
entered, whatever happened in it and in the regions inside.

**Theorem (`regions_restored`).** A region that ends, by a release or because a panic unwinds it and
all the regions inside, leaves the arguments as they were when it was entered; the outermost one
leaves the original ones. A layer that a call has entered leaves the arguments as they were above
its marks, however the layers below it end.

* `Regions.steps_drop`: no step reaches what the outer regions have saved.
* `Regions.releases_of_drop`: ending regions one after another.
* `Session.passRegions_eq`: the way through the layers is a run over nested regions.
-/

namespace TaskStack

/-! ## Steps and open regions -/

/-- How many regions are open after a step, if there were `n`; none, if it ends one that is not
among them. -/
def RegionStep.openAfter : RegionStep → Nat → Option Nat
  | .acquire _, n => some (n + 1)
  | .release, 0 => none
  | .release, n + 1 => some n
  | _, n => some n

/-- The step is a panic. -/
def RegionStep.isPanic : RegionStep → Bool
  | .panic _ => true
  | _ => false

namespace Regions

/-- How many regions steps leave open, if there were `n` before; none, if they end one that is not
among them. -/
def openAfter : List RegionStep → Nat → Option Nat
  | [], n => some n
  | s :: rest, n => (s.openAfter n).bind (openAfter rest)

/-- The regions after some steps. -/
def steps (r : Regions) (ss : List RegionStep) : Regions := ss.foldl step r

/-- Ends the `n` innermost regions. -/
def releases (r : Regions) : Nat → Regions
  | 0 => r
  | n + 1 => r.release.releases n

/-- The arguments after each of some steps. -/
def shown : Regions → List RegionStep → List Args
  | _, [] => []
  | r, s :: rest => (r.step s).current :: (r.step s).shown rest

variable {r : Regions} {a : Args} {below : List Args} {n m : Nat}

/-- A step leaves alone what the regions below the `n` innermost have saved. -/
theorem step_drop {s : RegionStep} (hs : s.openAfter n = some m)
    (h : r.saved.drop n = a :: below) : (r.step s).saved.drop m = a :: below := by
  cases s with
  | acquire prepend =>
    cases hs
    exact h
  | release =>
    cases n with
    | zero => cases hs
    | succ n =>
      cases hs
      obtain ⟨current, _ | ⟨b, saved⟩⟩ := r
      · cases h
      · exact h
  | _ =>
    cases hs
    exact h

theorem steps_drop {ss : List RegionStep} (hs : openAfter ss n = some m)
    (h : r.saved.drop n = a :: below) : (r.steps ss).saved.drop m = a :: below := by
  induction ss generalizing r n with
  | nil =>
    cases hs
    exact h
  | cons s ss ih =>
    obtain ⟨k, hk, hrest⟩ := Option.bind_eq_some_iff.1 hs
    exact ih hrest (step_drop hk h)

/-- Ending the `n` innermost regions and the next one. -/
theorem releases_of_drop (h : r.saved.drop n = a :: below) : r.releases (n + 1) = ⟨a, below⟩ := by
  induction n generalizing r with
  | zero =>
    obtain ⟨current, saved⟩ := r
    obtain rfl : saved = a :: below := h
    rfl
  | succ n ih =>
    obtain ⟨current, _ | ⟨b, saved⟩⟩ := r
    · cases h
    · exact ih h

/-- **A region that ends restores the arguments**, if first the regions inside end that are open. -/
theorem releases_steps (r : Regions) (prepend : Option Bool) {inner : List RegionStep}
    (h : openAfter inner 0 = some n) :
    ((r.step (.acquire prepend)).steps inner).releases (n + 1) = r :=
  releases_of_drop (steps_drop h rfl)

/-! ## Runs -/

theorem unwind_go (current : Args) (saved : List Args) :
    (unwind.go current saved).1 ++ [(unwind.go current saved).2] = current :: saved := by
  induction saved generalizing current with
  | nil => rfl
  | cons a saved ih => exact congrArg (current :: ·) (ih a)

theorem unwind_append (h : r.saved ≠ []) : r.unwind.1 ++ [r.unwind.2] = r.saved := by
  obtain ⟨current, _ | ⟨a, saved⟩⟩ := r
  · exact absurd rfl h
  · exact unwind_go a saved

/-- What is saved comes back when the regions end one after another. -/
theorem saved_eq (current : Args) (saved : List Args) : saved =
    (List.range saved.length).map fun k => ((Regions.mk current saved).releases (k + 1)).current := by
  induction saved generalizing current with
  | nil => rfl
  | cons a saved ih =>
    rw [List.length_cons, List.range_succ_eq_map, List.map_cons, List.map_map]
    exact congrArg (a :: ·) (ih a)

/-- **Unwinding ends the regions one after another**, the innermost first. -/
theorem unwind_eq (h : r.saved ≠ []) : r.unwind.1 ++ [r.unwind.2] =
    (List.range r.saved.length).map fun k => (r.releases (k + 1)).current :=
  (unwind_append h).trans (saved_eq r.current r.saved)

theorem unwind_getLast (h : r.saved.getLast? = some a) : r.unwind.2 = a := by
  have hne : r.saved ≠ [] := by
    intro hnil
    rw [hnil] at h
    cases h
  rw [← unwind_append hne, List.getLast?_concat] at h
  exact Option.some.inj h

theorem run_cons {s : RegionStep} (hs : s.isPanic = false) (rest : List RegionStep) :
    r.run (s :: rest) =
      if (r.step s).saved.isEmpty then ⟨[], none, (r.step s).current⟩
      else { (r.step s).run rest with
        seen := (r.step s).current :: ((r.step s).run rest).seen } := by
  cases s with
  | panic text => cases hs
  | _ => rfl

/-- The outermost region keeps its arguments until it ends with them. -/
theorem step_getLast (h : r.saved.getLast? = some a) (s : RegionStep) :
    (r.step s).saved.getLast? = some a ∨ (r.step s).saved = [] ∧ (r.step s).current = a := by
  obtain ⟨current, saved⟩ := r
  cases s with
  | acquire prepend => exact .inl (by simp [step, List.getLast?_cons, h])
  | release =>
    obtain _ | ⟨b, _ | ⟨c, saved⟩⟩ := saved
    · cases h
    · exact .inr ⟨rfl, Option.some.inj h⟩
    · exact .inl (by simpa [step, release, List.getLast?_cons_cons] using h)
  | _ => exact .inl h

/-- **However a run ends, it gives back what the outermost region has saved.** -/
theorem run_after (h : r.saved.getLast? = some a) (ss : List RegionStep) :
    (r.run ss).after = a := by
  induction ss generalizing r with
  | nil => exact unwind_getLast h
  | cons s rest ih =>
    by_cases hs : s.isPanic
    · cases s with
      | panic text => exact unwind_getLast h
      | _ => cases hs
    · rw [run_cons (by simpa using hs)]
      obtain hlast | ⟨hempty, hcurrent⟩ := step_getLast h s
      · split
        · next hempty =>
          rw [List.isEmpty_iff.1 hempty] at hlast
          cases hlast
        · exact ih hlast
      · rw [if_pos (List.isEmpty_iff.2 hempty)]
        exact hcurrent

/-- A run goes on after steps that end none of the regions that were there. -/
theorem run_append {inner : List RegionStep} (hpanic : ∀ s ∈ inner, s.isPanic = false)
    (hopen : openAfter inner n = some m) (h : r.saved.drop n = a :: below)
    (rest : List RegionStep) :
    r.run (inner ++ rest) = { (r.steps inner).run rest with
      seen := r.shown inner ++ ((r.steps inner).run rest).seen } := by
  -- what lies below the open regions stays saved, so no step ends the outermost one
  induction inner generalizing r n with
  | nil => rfl
  | cons s inner ih =>
    obtain ⟨k, hk, hrest⟩ := Option.bind_eq_some_iff.1 hopen
    have hdrop := step_drop hk h
    have hne : ¬ (r.step s).saved.isEmpty := by
      intro hempty
      rw [List.isEmpty_iff.1 hempty, List.drop_nil] at hdrop
      cases hdrop
    rw [List.cons_append, run_cons (hpanic s List.mem_cons_self), if_neg hne,
      ih (fun s hs => hpanic s (List.mem_cons_of_mem _ hs)) hrest hdrop]
    rfl

/-- **A run goes on after a nested region as if there had been none**, and shows the arguments of
the enclosing region as they were before. -/
theorem run_region (hr : r.saved ≠ []) (prepend : Option Bool) {inner : List RegionStep}
    (hpanic : ∀ s ∈ inner, s.isPanic = false) (hopen : openAfter inner 0 = some 0)
    (rest : List RegionStep) :
    r.run (.acquire prepend :: inner ++ .release :: rest) = { r.run rest with
      seen := r.shown (.acquire prepend :: inner) ++ r.current :: (r.run rest).seen } := by
  have hback : ((r.step (.acquire prepend)).steps inner).step .release = r :=
    releases_steps r prepend hopen
  rw [List.cons_append, run_cons rfl, if_neg (by simp [step]), run_append hpanic hopen rfl,
    run_cons rfl, hback, if_neg (by simpa using hr)]
  rfl

end Regions

theorem Args.runRegion_after (a : Args) (prepend : Option Bool) (ss : List RegionStep) :
    (a.runRegion prepend ss).after = a :=
  Regions.run_after (r := .enter a prepend) rfl ss

/-! ## Layers -/

namespace Session

variable (id : TaskId) (info : TaskInfo) (scope : Scope)
  (inner : Args → Session → Except Fault Value × Session)

/-- The way through layers over nested regions: a layer that is entered opens one, and it ends when
the way through the layers below has ended. -/
def passRegions : Nat → List Layer → Regions → Session → Except Fault Value × Regions × Session
  | _, [], r, s =>
    let (result, s) := inner r.current s
    (result, r, s)
  | index, layer :: rest, r, s =>
    match s.beforeLayer id info scope index layer r.current with
    | (.error fault, args, s) => (.error fault, { r with current := args }, s)
    | (.ok (), args, s) =>
      let entered := ({ r with current := args } : Regions).steps
        (.acquire layer.prepend :: layer.markers.map fun m => .mark m.1 m.2)
      let (result, r, s) := passRegions (index + 1) rest entered s
      (result, r.step .release, s)

/-- Entering the region of a layer saves the arguments and puts the marks on. -/
theorem steps_acquire_mark (r : Regions) (prepend : Option Bool) (markers : List (String × Value)) :
    r.steps (.acquire prepend :: markers.map fun m => .mark m.1 m.2) =
      ⟨r.current.marked prepend markers, r.current :: r.saved⟩ := by
  have hmarks (a : Args) (saved : List Args) :
      (Regions.mk a saved).steps (markers.map fun m => .mark m.1 m.2) =
        ⟨markers.foldl (fun a m => a.mark m.1 m.2) a, saved⟩ := by
    induction markers generalizing a with
    | nil => rfl
    | cons m markers ih => exact ih (a.mark m.1 m.2)
  exact hmarks (r.current.acquire prepend) (r.current :: r.saved)

/-- **The way through the layers is a run over nested regions.** -/
theorem passRegions_eq (index : Nat) (layers : List Layer) (r : Regions) (s : Session) :
    passRegions id info scope inner index layers r s =
      let (result, args, s) := passLayers id info scope inner index layers r.current s
      (result, { r with current := args }, s) := by
  induction layers generalizing index r s with
  | nil => rfl
  | cons layer rest ih =>
    rw [passRegions, passLayers]
    generalize s.beforeLayer id info scope index layer r.current = answer
    obtain ⟨fault | u, args, s'⟩ := answer
    · rfl
    · -- the layers below leave the saved arguments alone, so the release finds those of this layer
      dsimp only
      rw [steps_acquire_mark, ih]
      rfl

/-- A layer that was entered leaves the arguments as they were above its marks. -/
theorem passLayers_args {index : Nat} {layer : Layer} {rest : List Layer} {args args' : Args}
    {s s' : Session} (h : s.beforeLayer id info scope index layer args = (.ok (), args', s')) :
    (passLayers id info scope inner index (layer :: rest) args s).2.1 = args' := by
  rw [passLayers, h]
  rfl

end Session

/-- **Marker regions give the arguments back.** A region that ends, after the `n` regions that are
open inside, leaves everything as it was when it was entered; unwinding ends the regions one after
another; a run goes on after a region as if there had been none, and however it ends it leaves the
original arguments. Layers are such regions, so a layer that a call has entered leaves the arguments
as they were above its marks, however the layers below it end. -/
theorem regions_restored :
    (∀ (r : Regions) (prepend : Option Bool) (inner : List RegionStep) (n : Nat),
      Regions.openAfter inner 0 = some n →
      ((r.step (.acquire prepend)).steps inner).releases (n + 1) = r) ∧
    (∀ r : Regions, r.saved ≠ [] → r.unwind.1 ++ [r.unwind.2] =
      (List.range r.saved.length).map fun k => (r.releases (k + 1)).current) ∧
    (∀ (r : Regions) (prepend : Option Bool) (inner rest : List RegionStep), r.saved ≠ [] →
      (∀ s ∈ inner, s.isPanic = false) → Regions.openAfter inner 0 = some 0 →
      r.run (.acquire prepend :: inner ++ .release :: rest) = { r.run rest with
        seen := r.shown (.acquire prepend :: inner) ++ r.current :: (r.run rest).seen }) ∧
    (∀ (a : Args) (prepend : Option Bool) (ss : List RegionStep),
      (a.runRegion prepend ss).after = a) ∧
    ∀ (id : TaskId) (info : TaskInfo) (scope : Scope)
      (inner : Args → Session → Except Fault Value × Session),
      (∀ (index : Nat) (layers : List Layer) (r : Regions) (s : Session),
        Session.passRegions id info scope inner index layers r s =
          let (result, args, s) := Session.passLayers id info scope inner index layers r.current s
          (result, { r with current := args }, s)) ∧
      ∀ (index : Nat) (layer : Layer) (rest : List Layer) (args args' : Args) (s s' : Session),
        s.beforeLayer id info scope index layer args = (.ok (), args', s') →
        (Session.passLayers id info scope inner index (layer :: rest) args s).2.1 = args' :=
  ⟨fun r prepend _ _ h => Regions.releases_steps r prepend h,
    fun _ h => Regions.unwind_eq h,
    fun _ prepend _ rest hr hpanic hopen => Regions.run_region hr prepend hpanic hopen rest,
    Args.runRegion_after,
    fun id info scope inner => ⟨Session.passRegions_eq id info scope inner,
      fun _ _ _ _ _ _ _ h => Session.passLayers_args id info scope inner h⟩⟩

/-- A panic two regions deep, a region that ends by itself, and a layer below which a body panics.
-/
theorem regions_restored_panic :
    let a := Args.ofPositional [.null]
    let r := Regions.enter a (some true)
    let nested : List RegionStep := [.acquire none, .insert "x" .null, .release, .remove "x"]
    let boom (_ : Args) (s : Session) : Except Fault Value × Session := (.error (.panic "boom"), s)
    let mpi : Layer := .custom { name := "@mpi", configure := fun _ slot => (.ok (), slot),
                                 prepend := some false, markers := [("nodes", .null)] }
    ((r.step (.acquire none)).steps [.mark "x" .null, .acquire (some false),
      .replace (.positional 0) "x" .null, .panic "boom"]).releases 2 = r ∧
    r.unwind.1 ++ [r.unwind.2] = [a] ∧
    (r.run (.acquire none :: nested ++ [.release])).seen =
      r.shown (.acquire none :: nested) ++ [r.current] ∧
    (a.runRegion (some true) [.acquire none, .panic "boom"]).after = a ∧
    (Session.passLayers 0 ⟨"demo", "idle", {}⟩ ⟨.worker, none⟩ boom 0 [mpi] a {}).1 =
      .error (.panic "boom") ∧
    (Session.passLayers 0 ⟨"demo", "idle", {}⟩ ⟨.worker, none⟩ boom 0 [mpi] a {}).2.1 = a := by
  intro a r nested boom mpi
  obtain ⟨hends, hunwind, hrun, hafter, hlayers⟩ := regions_restored
  refine ⟨hends r none _ 1 rfl, hunwind r (List.cons_ne_nil _ _), ?_, hafter _ _ _, rfl, ?_⟩
  · rw [hrun r none nested [] (List.cons_ne_nil _ _) (by simp [nested, RegionStep.isPanic]) rfl]
    rfl
  · exact (hlayers 0 _ _ boom).2 0 mpi [] a a {} {} rfl

end TaskStack
