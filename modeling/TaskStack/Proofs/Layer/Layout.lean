import TaskStack.Layer.Mpi

/-!
# The parameter of a layout

A layout is an option whose key is the name of a parameter and then an ending. The parameter is read
off the key by taking the ending away, as often as it stands there. So a name that itself ends in
the ending loses that too, and the layout is one of another parameter.

**Theorem (`ofOptions_layout`).** A layer with one layout that is accepted has the layout of the
parameter that is left when every ending is taken off the key, and that parameter is what the engine
is told and what the task has to declare. It is the name in the key exactly when that name does not
end in the ending.

* `OptionRules.check_of_current`: options under their own names pass unchanged.
* `stripLayout_spec`: a key is what is left of it, and then endings.
-/

namespace TaskStack

/-! ## Options under their own names -/

namespace Dict

variable {α : Type} {d : Dict α} {k : String} {v : α}

theorem contains_of_mem (h : (k, v) ∈ d.entries) : d.contains k = true := by
  rw [contains, get?_eq_some_iff.2 h]
  rfl

/-- A map of two names has the entry of the first beside that of the second. -/
theorem mem_ofList_pair {k₁ k₂ : String} {v₁ v₂ : α} (hne : k₁ ≠ k₂) :
    (k, v) ∈ (ofList [(k₁, v₁), (k₂, v₂)]).entries ↔
      k = k₁ ∧ v = v₁ ∨ k = k₂ ∧ v = v₂ := by
  rw [← get?_eq_some_iff]
  simp only [ofList, List.foldl_cons, List.foldl_nil, get?_insert, get?_empty]
  grind

end Dict

namespace OptionRules

variable {r : OptionRules} {dynamic : String → Bool}

theorem rename_of_current {l : List (String × Value)} {renamed : Options}
    (hl : l.Pairwise fun a b => a.1 < b.1)
    (hcurrent : ∀ e ∈ l, r.target? dynamic e.1 = some e.1)
    (hnew : ∀ e ∈ l, renamed.contains e.1 = false) :
    r.rename dynamic l renamed = .ok (l.foldl (fun d e => d.insert e.1 e.2) renamed) := by
  induction l generalizing renamed with
  | nil => rfl
  | cons e rest ih =>
    obtain ⟨he, hrest⟩ := List.pairwise_cons.1 hl
    obtain ⟨hfirst, hcurrent⟩ := List.forall_mem_cons.1 hcurrent
    obtain ⟨habsent, hnew⟩ := List.forall_mem_cons.1 hnew
    rw [rename, hfirst]
    simp only [habsent, Bool.false_eq_true, if_false]
    refine ih hrest hcurrent ?_
    intro e' he'
    have hne : e.1 ≠ e'.1 := fun h => String.lt_irrefl _ (h ▸ he e' he')
    rw [Dict.contains, Dict.get?_insert_of_ne _ _ hne]
    exact hnew e' he'

/-- **Options under their own names pass unchanged,** if none is missing. -/
theorem check_of_current {options : Options}
    (hcurrent : ∀ e ∈ options.entries, r.target? dynamic e.1 = some e.1)
    (hmandatory : ∀ k ∈ r.mandatory, options.contains k = true) :
    r.check options dynamic = .ok options := by
  have hrename : r.rename dynamic options.entries ∅ = .ok options := by
    rw [rename_of_current options.sorted hcurrent fun _ _ => rfl]
    exact congrArg Except.ok (Dict.ofList_entries options)
  have hnone : r.mandatory.find? (!options.contains ·) = none :=
    List.find?_eq_none.2 fun k hk => by simp [hmandatory k hk]
  simp only [check, hrename, bind, Except.bind, hnone]

end OptionRules

namespace MpiParallel

/-! ## Endings -/

theorem length_layoutEnding : layoutEnding.length = 7 := by decide

theorem go_spec {n : Nat} {cs : List Char} (h : cs.length ≤ n) :
    ¬ layoutEnding.reverse <+: stripLayout.go n cs ∧
      ∃ k, cs = (List.replicate k layoutEnding.reverse).flatten ++ stripLayout.go n cs := by
  induction n generalizing cs with
  | zero =>
    obtain rfl := List.length_eq_zero_iff.1 (Nat.le_zero.1 h)
    exact ⟨by decide, 0, rfl⟩
  | succ n ih =>
    rw [stripLayout.go]
    split
    · next hends =>
      obtain ⟨rest, rfl⟩ := List.isPrefixOf_iff_prefix.1 hends
      have hrest : List.drop layoutEnding.length (layoutEnding.reverse ++ rest) = rest :=
        List.drop_left' List.length_reverse
      have hshorter : rest.length ≤ n := by
        rw [List.length_append, List.length_reverse, length_layoutEnding] at h
        omega
      rw [hrest]
      obtain ⟨hstop, k, hk⟩ := ih hshorter
      refine ⟨hstop, k + 1, ?_⟩
      rw [List.replicate_succ, List.flatten_cons, List.append_assoc, ← hk]
    · next hends => exact ⟨mt List.isPrefixOf_iff_prefix.2 hends, 0, rfl⟩

/-- **A key is what is left of it, and then endings.** -/
theorem stripLayout_spec (key : String) :
    ¬ layoutEnding <:+ (stripLayout key).toList ∧
      ∃ k, key.toList = (stripLayout key).toList ++ (List.replicate k layoutEnding).flatten := by
  have hlength : key.toList.reverse.length ≤ key.toList.length :=
    Nat.le_of_eq List.length_reverse
  obtain ⟨hstop, k, hk⟩ := go_spec hlength
  constructor
  · intro hends
    rw [stripLayout, String.toList_ofList] at hends
    exact hstop (List.reverse_suffix.1 (by rwa [List.reverse_reverse]))
  · refine ⟨k, ?_⟩
    rw [stripLayout, String.toList_ofList]
    have hrev := congrArg List.reverse hk
    simpa [List.reverse_flatten] using hrev

/-- The key of the layout of a parameter. -/
def layoutKey (p : String) : String := p ++ "_layout"

theorem isLayoutKey_layoutKey {p : String} (hp : p ≠ "") : isLayoutKey (layoutKey p) = true := by
  have hlength : 0 < p.toList.length := by
    rw [List.length_pos_iff]
    exact mt String.toList_eq_nil_iff.1 hp
  simp only [isLayoutKey, layoutKey, String.toList_append, Bool.and_eq_true, decide_eq_true_eq,
    List.isSuffixOf_iff_suffix]
  refine ⟨?_, List.suffix_append ..⟩
  rw [List.length_append]
  exact Nat.lt_add_of_pos_left hlength

theorem layoutKey_ne {p k : String} (h : ¬ layoutEnding <:+ k.toList) : layoutKey p ≠ k := by
  rintro rfl
  exact h (by rw [layoutKey, String.toList_append]; exact List.suffix_append ..)

/-- The keys of layouts are those of parameters with a name. -/
theorem isLayoutKey_iff {key : String} :
    isLayoutKey key = true ↔ ∃ p, p ≠ "" ∧ key = layoutKey p := by
  constructor
  · intro h
    simp only [isLayoutKey, Bool.and_eq_true, decide_eq_true_eq, List.isSuffixOf_iff_suffix] at h
    obtain ⟨hlength, cs, hcs⟩ := h
    refine ⟨String.ofList cs, ?_, ?_⟩
    · rintro hempty
      have hnil : cs = [] := by simpa using congrArg String.toList hempty
      rw [← hcs, hnil] at hlength
      exact Nat.lt_irrefl _ hlength
    · rw [← String.toList_inj, ← hcs, layoutKey, String.toList_append, String.toList_ofList]
      rfl
  · rintro ⟨p, hp, rfl⟩
    exact isLayoutKey_layoutKey hp

/-- The key of a layout is an option of its own. -/
theorem target?_layoutKey {p : String} (hp : p ≠ "") :
    rules.target? isLayoutKey (layoutKey p) = some (layoutKey p) := by
  have hdeprecated : rules.deprecated.find? (·.1 = layoutKey p) = none := by
    rw [List.find?_eq_none]
    intro e he
    have hends : ¬ layoutEnding <:+ e.1.toList := by
      revert e
      decide
    simpa using (layoutKey_ne hends).symm
  rw [OptionRules.target?, hdeprecated]
  simp [isLayoutKey_layoutKey hp]

/-- **What is left of the key of a parameter** is the parameter without the endings that it has
itself. -/
theorem stripLayout_layoutKey (p : String) :
    ∃ n, p.toList =
      (stripLayout (layoutKey p)).toList ++ (List.replicate n layoutEnding).flatten := by
  obtain ⟨hstop, k, hk⟩ := stripLayout_spec (layoutKey p)
  rw [layoutKey, String.toList_append] at hk
  cases k with
  | zero =>
    rw [List.replicate_zero, List.flatten_nil, List.append_nil] at hk
    exact absurd (hk ▸ List.suffix_append ..) hstop
  | succ n =>
    rw [List.replicate_succ', List.flatten_append, List.flatten_singleton, ← List.append_assoc]
      at hk
    exact ⟨n, List.append_cancel_right hk⟩

/-- A parameter is what is left of its key exactly when it has no ending itself. -/
theorem stripLayout_layoutKey_eq_iff (p : String) :
    stripLayout (layoutKey p) = p ↔ ¬ layoutEnding <:+ p.toList := by
  constructor
  · intro h
    have hstop := (stripLayout_spec (layoutKey p)).1
    rwa [h] at hstop
  · intro h
    obtain ⟨n, hn⟩ := stripLayout_layoutKey p
    cases n with
    | zero =>
      rw [List.replicate_zero, List.flatten_nil, List.append_nil] at hn
      exact String.toList_inj.1 hn.symm
    | succ n =>
      rw [List.replicate_succ', List.flatten_append, List.flatten_singleton,
        ← List.append_assoc] at hn
      exact absurd (hn ▸ List.suffix_append ..) h

/-! ## A layer with one layout -/

theorem param_of_ofOption {key : String} {v : Value} {layout : CollectionLayout}
    (h : CollectionLayout.ofOption key v = .ok layout) : layout.param = stripLayout key := by
  unfold CollectionLayout.ofOption at h
  split at h
  · cases h
  · next fields _ =>
    simp only [bind, Except.bind] at h
    -- Whatever is wrong with a field ends in an error, so only the last branch is left.
    repeat' split at h
    all_goals first | cases h | skip
    unfold CollectionLayout.make at h
    split at h
    · cases h
    · cases h
      rfl

/-- A runner, and the layout of a parameter. -/
def withLayout (runner p : String) (v : Value) : Options :=
  .ofList [("runner", .string runner), (layoutKey p, v)]

section

variable {p runner : String} {v : Value} (hp : p ≠ "")

include hp

theorem check_withLayout :
    rules.check (withLayout runner p v) isLayoutKey = .ok (withLayout runner p v) := by
  have hne : "runner" ≠ layoutKey p := (layoutKey_ne (by decide)).symm
  have hmem {k : String} {w : Value} : (k, w) ∈ (withLayout runner p v).entries ↔
      k = "runner" ∧ w = .string runner ∨ k = layoutKey p ∧ w = v := Dict.mem_ofList_pair hne
  apply OptionRules.check_of_current
  · rintro ⟨k, w⟩ hk
    obtain ⟨rfl, -⟩ | ⟨rfl, -⟩ := hmem.1 hk
    · rfl
    · exact target?_layoutKey hp
  · intro k hk
    obtain rfl := List.mem_singleton.1 hk
    exact Dict.contains_of_mem (hmem.2 (.inl ⟨rfl, rfl⟩))

theorem layoutsOf_withLayout {layout : CollectionLayout}
    (h : CollectionLayout.ofOption (layoutKey p) v = .ok layout) :
    layoutsOf (withLayout runner p v) = .ok [layout] := by
  have hfilter : (withLayout runner p v).filterKeys isLayoutKey = .ofList [(layoutKey p, v)] := by
    apply Dict.ext_get?
    intro k
    have hkey := isLayoutKey_layoutKey hp
    have hrunner : isLayoutKey "runner" = false := by decide
    simp only [withLayout, Dict.ofList, List.foldl_cons, List.foldl_nil, Dict.get?_filterKeys,
      Dict.get?_insert, Dict.get?_empty]
    grind
  have hentries : ((withLayout runner p v).entries.filter fun e => isLayoutKey e.1) =
      [(layoutKey p, v)] := congrArg Dict.entries hfilter
  rw [layoutsOf, hentries]
  simp only [List.mapM_cons, List.mapM_nil, h, bind, pure, Except.bind, Except.pure]

/-- The layer has the layout, and everything else is as it is without options. -/
theorem ofOptions_withLayout {layout : CollectionLayout}
    (h : CollectionLayout.ofOption (layoutKey p) v = .ok layout) :
    ofOptions (withLayout runner p v) = .ok { runner, layout := some layout } := by
  have hget (k : String) (hends : ¬ layoutEnding <:+ k.toList) :
      (withLayout runner p v).get? k = if "runner" = k then some (.string runner) else none := by
    simp only [withLayout, Dict.ofList, List.foldl_cons, List.foldl_nil, Dict.get?_insert,
      Dict.get?_empty, layoutKey_ne hends, if_false]
  have hstring (k : String) (hk : k ≠ "runner") (hends : ¬ layoutEnding <:+ k.toList) :
      rules.string? (withLayout runner p v) k = .ok none := by
    rw [OptionRules.string?, hget k hends, if_neg hk.symm]
  have hflag (k : String) (hk : k ≠ "runner") (hends : ¬ layoutEnding <:+ k.toList) :
      rules.flag (withLayout runner p v) k "false" = .ok "false" := by
    rw [OptionRules.flag, hget k hends, if_neg hk.symm]
  have hrunner : rules.string? (withLayout runner p v) "runner" = .ok (some runner) := by
    rw [OptionRules.string?, hget "runner" (by decide), if_pos rfl]
  have hprocesses : processesOf (withLayout runner p v) = .ok (.count 1) := by
    rw [processesOf, hget "processes" (by decide), if_neg (by decide)]
  simp only [ofOptions, bind, Except.bind, check_withLayout hp, hrunner, hprocesses,
    layoutsOf_withLayout hp h, hstring "binary" (by decide) (by decide),
    hstring "working_dir" (by decide) (by decide), hstring "flags" (by decide) (by decide),
    hflag "scale_by_cu" (by decide) (by decide), hflag "fail_by_exit_value" (by decide) (by decide)]
  rfl

end

/-- **The layout of an option is one of the parameter in its key,** without the endings that the
parameter has itself; that is what the engine is told and what the task has to declare. -/
theorem ofOptions_layout {p runner : String} {v : Value} {layout : CollectionLayout} (hp : p ≠ "")
    (h : CollectionLayout.ofOption (p ++ "_layout") v = .ok layout) :
    ∃ m : MpiParallel,
      ofOptions (.ofList [("runner", .string runner), (p ++ "_layout", v)]) = .ok m ∧
      m.layout = some layout ∧
      m.implementationArgs[6]? = some layout.param ∧
      (∀ info, m.validate info = .ok () ↔ info.schema.contains layout.param = true) ∧
      (∃ n, p.toList = layout.param.toList ++ (List.replicate n layoutEnding).flatten) ∧
      ¬ layoutEnding <:+ layout.param.toList ∧
      (layout.param = p ↔ ¬ layoutEnding <:+ p.toList) := by
  have hparam : layout.param = stripLayout (layoutKey p) := param_of_ofOption h
  refine ⟨_, ofOptions_withLayout hp h, rfl, rfl, ?_, ?_, ?_, ?_⟩
  · intro info
    simp [validate]
  · rw [hparam]
    exact stripLayout_layoutKey p
  · rw [hparam]
    exact (stripLayout_spec (layoutKey p)).1
  · rw [hparam]
    exact stripLayout_layoutKey_eq_iff p

/-- A layout in two blocks. -/
def inTwo : Value := Value.ofDict (.ofList [("block_count", .int 2)])

/-- The layout of a parameter with the ending in its name is one of another parameter. -/
theorem ofOptions_layout_twice :
    ∃ m : MpiParallel, ofOptions (.ofList [("runner", .string "mpirun"),
        ("x_layout" ++ "_layout", inTwo)]) = .ok m ∧
      m.implementationArgs[6]? = some "x" ∧
      m.validate ⟨"demo", "f", ⟨[{ name := "x_layout" }]⟩⟩ ≠ .ok () := by
  have hlayout : CollectionLayout.ofOption ("x_layout" ++ "_layout") inTwo =
      .ok ⟨"x", some 2, none, none⟩ := rfl
  obtain ⟨m, hm, -, hargs, hvalidate, -⟩ := ofOptions_layout (by decide) hlayout
  refine ⟨m, hm, hargs, ?_⟩
  rw [Ne, hvalidate]
  decide

/-- **A layout need not be one of the parameter in its key.** -/
theorem not_ofOptions_own_param :
    ¬ ∀ (p runner : String) (v : Value) (layout : CollectionLayout), p ≠ "" →
      CollectionLayout.ofOption (p ++ "_layout") v = .ok layout →
      ∃ m : MpiParallel,
        ofOptions (.ofList [("runner", .string runner), (p ++ "_layout", v)]) = .ok m ∧
        m.layout.map (·.param) = some p ∧
        m.implementationArgs[6]? = some p ∧
        ∀ info, m.validate info = .ok () ↔ info.schema.contains p = true := by
  intro h
  obtain ⟨m, hm, hlayout, -⟩ :=
    h "x_layout" "mpirun" inTwo ⟨"x", some 2, none, none⟩ (by decide) rfl
  cases (ofOptions_withLayout (p := "x_layout") (by decide) rfl).symm.trans hm
  have hends : layoutEnding <:+ "x_layout".toList := by decide
  exact (stripLayout_layoutKey_eq_iff "x_layout").1 (Option.some.inj hlayout) hends

end MpiParallel
end TaskStack
