import Mathlib.Algebra.Group.Int.Defs
import TaskStack.Proofs.Layer.Intake
import TaskStack.Proofs.Layer.Layout

/-!
# The options of a parallel run

A parallel run takes seven options, three of them under old names as well, and the layout of any
parameter. Which options there are is said by `Names`, key by key; then each option is looked at by
itself, for it is read from what it is given and from nothing else.

**Theorem (`ofOptions_reads`).** A layer is made of options exactly when they keep to the grammar:
every key stands for an option and no two for the same, there is a runner, every option is given a
value of its kind, and there is one layout at most. What the layer is made of is what its options
are given, with the defaults in place of those that are not.

* `target?_eq_some_iff`: the option that a key stands for.
* `string?_eq_ok_iff`, `flag_eq_ok_iff`, `processesOf_eq_ok_iff`: one option.
* `ofOption_eq_ok_iff`, `Lists.ofOption_iff`: the layouts.
* `Grammar.exists_check`, `exists_reads`: nothing else is asked.
-/

namespace TaskStack

namespace MpiParallel

/-! ## Options and their keys -/

/-- A key stands for an option. -/
inductive Names : String → String → Prop
  | own {option : String} :
      option ∈ ["runner", "binary", "processes", "working_dir", "flags", "scale_by_cu",
        "fail_by_exit_value"] → Names option option
  | nodes : Names "computing_nodes" "processes"
  | nodesCamel : Names "computingNodes" "processes"
  | dirCamel : Names "workingDir" "working_dir"
  | layout {p : String} : p ≠ "" → Names (p ++ "_layout") (p ++ "_layout")

theorem target?_eq_some_iff {key option : String} :
    rules.target? isLayoutKey key = some option ↔ Names key option := by
  constructor
  · intro h
    rw [OptionRules.target?] at h
    split at h
    · next old replacement hfind =>
      cases h
      have hkey : old = key := by simpa using List.find?_some hfind
      have hmem : (old, option) ∈ rules.deprecated := List.mem_of_find?_eq_some hfind
      subst hkey
      simp only [rules, List.mem_cons, Prod.mk.injEq, List.not_mem_nil, or_false] at hmem
      obtain ⟨rfl, rfl⟩ | ⟨rfl, rfl⟩ | ⟨rfl, rfl⟩ := hmem
      · exact .nodes
      · exact .nodesCamel
      · exact .dirCamel
    · split at h
      · next hcurrent =>
        cases h
        obtain hown | hlayout := Bool.or_eq_true_iff.1 hcurrent
        · exact .own (List.contains_iff_mem.1 hown)
        · obtain ⟨p, hp, rfl⟩ := isLayoutKey_iff.1 hlayout
          exact .layout hp
      · cases h
  · rintro (hown | _ | _ | _ | hp)
    · revert hown
      revert key
      decide
    · rfl
    · rfl
    · rfl
    · exact target?_layoutKey hp

/-- An option is given a value. -/
def Given (options : Options) (option : String) (value : Value) : Prop :=
  ∃ key, (key, value) ∈ options.entries ∧ Names key option

/-! ## The grammar -/

/-- The fields of a layout: whole numbers of 64 bits, the number of blocks among them when there is
any other. -/
structure Blocks (fields : Dict Value) : Prop where
  known : ∀ field ∈ fields.keys, field ∈ ["block_count", "block_length", "stride"]
  whole : ∀ field value, fields.get? field = some value → ∃ n, value = .int n
  counted : fields.contains "block_length" = true ∨ fields.contains "stride" = true →
    fields.contains "block_count" = true

/-- The text of a flag. -/
inductive FlagText : Value → String → Prop
  | yes : FlagText (.bool true) "true"
  | no : FlagText (.bool false) "false"
  | reference (s : String) : FlagText (.string s) s
  | number (n : Number) : FlagText (.number n) n.text

/-- Layouts are objects with the fields of one, and there is one at most. -/
structure LayoutGrammar (options : Options) : Prop where
  fields : ∀ p value, p ≠ "" → Given options (p ++ "_layout") value →
    ∃ fields, value.dict? = some fields ∧ Blocks fields
  one : ∀ p value q value', p ≠ "" → q ≠ "" → Given options (p ++ "_layout") value →
    Given options (q ++ "_layout") value' → p = q

/-- What a parallel run asks of its options. -/
structure Grammar (options : Options) : Prop where
  known : ∀ key ∈ options.keys, ∃ option, Names key option
  apart : ∀ key ∈ options.keys, ∀ other ∈ options.keys, ∀ option,
    Names key option → Names other option → key = other
  runner : ∃ s, Given options "runner" (.string s)
  processes : ∀ value, Given options "processes" value →
    (∃ s, value = .string s) ∨ ∃ n, value = .int n ∧ 1 ≤ n.toInt ∧ n.toInt ≤ 2 ^ 32 - 1
  texts : ∀ option ∈ ["binary", "working_dir", "flags"], ∀ value,
    Given options option value → ∃ s, value = .string s
  flags : ∀ option ∈ ["scale_by_cu", "fail_by_exit_value"], ∀ value,
    Given options option value → ∃ text, FlagText value text
  layout : LayoutGrammar options

/-! ## What the layer is made of -/

/-- The text of an option, if it is given. -/
def GivenText (options : Options) (option : String) (text : Option String) : Prop :=
  ∀ value, Given options option value ↔ text.map Value.string = some value

/-- The number of processes, one when it is not given. -/
inductive Asks (options : Options) : Processes → Prop
  | default : (∀ value, ¬ Given options "processes" value) → Asks options (.count 1)
  | count {k : Int64} {n : UInt32} :
      Given options "processes" (.int k) → k.toInt = n.toNat → Asks options (.count n)
  | dynamic {s : String} : Given options "processes" (.string s) → Asks options (.dynamic s)

/-- The text of a flag, `false` when it is not given. -/
inductive Flag (options : Options) (option : String) : String → Prop
  | default : (∀ value, ¬ Given options option value) → Flag options option "false"
  | given {value : Value} {text : String} :
      Given options option value → FlagText value text → Flag options option text

/-- A layout has the numbers among some fields. -/
structure Counts (fields : Dict Value) (layout : CollectionLayout) : Prop where
  blockCount : fields.get? "block_count" = layout.blockCount.map Value.int
  blockLength : fields.get? "block_length" = layout.blockLength.map Value.int
  stride : fields.get? "stride" = layout.stride.map Value.int

/-- The layout of a parameter, if one is given. -/
inductive Deals (options : Options) : Option CollectionLayout → Prop
  | default : (∀ p value, p ≠ "" → ¬ Given options (p ++ "_layout") value) → Deals options none
  | given {p : String} {value : Value} {fields : Dict Value} {layout : CollectionLayout} :
      p ≠ "" → Given options (p ++ "_layout") value → value.dict? = some fields →
      Counts fields layout → layout.param = stripLayout (p ++ "_layout") →
      Deals options (some layout)

/-- A layer is made of what its options are given. -/
structure Reads (options : Options) (m : MpiParallel) : Prop where
  runner : GivenText options "runner" (some m.runner)
  binary : GivenText options "binary" m.binary
  processes : Asks options m.processes
  workingDir : GivenText options "working_dir" m.workingDir
  flags : GivenText options "flags" m.flags
  scaleByCu : Flag options "scale_by_cu" m.scaleByCu
  failByExitValue : Flag options "fail_by_exit_value" m.failByExitValue
  layout : Deals options m.layout

/-! ## The fields of a layout -/

theorem int?_eq_ok_iff {key field : String} {fields : Dict Value} {n : Option Int64} :
    CollectionLayout.int? key fields field = .ok n ↔ fields.get? field = n.map Value.int := by
  unfold CollectionLayout.int?
  cases fields.get? field with
  | none => cases n <;> simp
  | some v =>
    dsimp only
    cases hv : v.int64? with
    | none =>
      have hnot (k : Int64) : v ≠ .int k := by
        rw [Ne, ← Value.int64?_eq_some_iff, hv]
        simp
      cases n with
      | none => simp
      | some k => simpa using hnot k
    | some k =>
      obtain rfl := Value.int64?_eq_some_iff.1 hv
      cases n with
      | none => simp
      | some k' => simp [Value.int_inj]

/-- A number that is absent is a field that is. -/
theorem contains_eq_isSome {fields : Dict Value} {field : String} {n : Option Int64}
    (h : fields.get? field = n.map Value.int) : fields.contains field = n.isSome := by
  rw [Dict.contains, h, Option.isSome_map]

/-- What the fields have to be, in terms of the numbers among them. -/
theorem blocks_iff {fields : Dict Value} {layout : CollectionLayout} (h : Counts fields layout) :
    Blocks fields ↔
      fields.keys.find? (!CollectionLayout.fieldNames.contains ·) = none ∧
      ¬ (layout.blockCount.isNone && (layout.blockLength.isSome || layout.stride.isSome)) := by
  have hwhole {field : String} {n : Option Int64} {value : Value}
      (hn : fields.get? field = n.map Value.int)
      (hvalue : fields.get? field = some value) : ∃ k, value = .int k := by
    rw [hn, Option.map_eq_some_iff] at hvalue
    obtain ⟨k, -, rfl⟩ := hvalue
    exact ⟨k, rfl⟩
  have hknown : fields.keys.find? (!CollectionLayout.fieldNames.contains ·) = none ↔
      ∀ field ∈ fields.keys, field ∈ ["block_count", "block_length", "stride"] := by
    simp [CollectionLayout.fieldNames, Decidable.or_iff_not_imp_left]
  have hcounted : (¬ (layout.blockCount.isNone &&
        (layout.blockLength.isSome || layout.stride.isSome)) = true) ↔
      (fields.contains "block_length" = true ∨ fields.contains "stride" = true →
        fields.contains "block_count" = true) := by
    rw [contains_eq_isSome h.blockCount, contains_eq_isSome h.blockLength,
      contains_eq_isSome h.stride]
    cases layout.blockCount <;> simp
  rw [hknown, hcounted]
  constructor
  · intro hblocks
    exact ⟨hblocks.known, hblocks.counted⟩
  · rintro ⟨hnames, hcounts⟩
    refine ⟨hnames, fun field value hvalue => ?_, hcounts⟩
    have hfield := hnames field (Dict.mem_keys_iff.2 ⟨value, Dict.get?_eq_some_iff.1 hvalue⟩)
    simp only [List.mem_cons, List.not_mem_nil, or_false] at hfield
    obtain rfl | rfl | rfl := hfield
    · exact hwhole h.blockCount hvalue
    · exact hwhole h.blockLength hvalue
    · exact hwhole h.stride hvalue

theorem ofOption_eq_ok_iff {key : String} {value : Value} {layout : CollectionLayout} :
    CollectionLayout.ofOption key value = .ok layout ↔
      ∃ fields, value.dict? = some fields ∧ Blocks fields ∧ Counts fields layout ∧
        layout.param = stripLayout key := by
  unfold CollectionLayout.ofOption
  cases value.dict? with
  | none => simp
  | some fields =>
    simp only [bind_eq_ok_iff, int?_eq_ok_iff, Option.some.injEq, exists_eq_left']
    constructor
    · rintro ⟨count, hcount, length, hlength, stride, hstride, h⟩
      split at h
      · cases h
      · next hnames =>
        rw [CollectionLayout.make] at h
        split at h
        · cases h
        · next hcounted =>
          cases h
          have hcounts : Counts fields ⟨stripLayout key, count, length, stride⟩ :=
            ⟨hcount, hlength, hstride⟩
          exact ⟨(blocks_iff hcounts).2 ⟨hnames, hcounted⟩, hcounts, rfl⟩
    · rintro ⟨hblocks, hcounts, hparam⟩
      obtain ⟨hnames, hcounted⟩ := (blocks_iff hcounts).1 hblocks
      refine ⟨layout.blockCount, hcounts.blockCount, layout.blockLength, hcounts.blockLength,
        layout.stride, hcounts.stride, ?_⟩
      rw [hnames]
      simp only [CollectionLayout.make, if_neg hcounted, ← hparam]

/-! ## One option after another -/

theorem toNat_ofNat_toNat {k : Int} (hone : 1 ≤ k) (hmax : k < 2 ^ 32) :
    ((UInt32.ofNat k.toNat).toNat : Int) = k := by
  rw [UInt32.toNat_ofNat_of_lt' (by rw [UInt32.size]; omega)]
  omega

theorem ofOptions_eq_ok_iff {options : Options} {m : MpiParallel} :
    ofOptions options = .ok m ↔ ∃ renamed, rules.check options isLayoutKey = .ok renamed ∧
      rules.string? renamed "runner" = .ok (some m.runner) ∧
      processesOf renamed = .ok m.processes ∧
      (∃ layouts, layoutsOf renamed = .ok layouts ∧ ¬ layouts.length > 1 ∧
        layouts.head? = m.layout) ∧
      rules.string? renamed "binary" = .ok m.binary ∧
      rules.string? renamed "working_dir" = .ok m.workingDir ∧
      rules.string? renamed "flags" = .ok m.flags ∧
      rules.flag renamed "scale_by_cu" "false" = .ok m.scaleByCu ∧
      rules.flag renamed "fail_by_exit_value" "false" = .ok m.failByExitValue := by
  simp only [ofOptions, bind_eq_ok_iff]
  refine exists_congr fun renamed => and_congr_right' ?_
  constructor
  · rintro ⟨_ | runner, hrunner, h⟩
    · cases h
    · simp only [bind_eq_ok_iff, Except.ok.injEq, exists_eq_left'] at h
      obtain ⟨processes, hprocesses, layouts, hlayouts, h⟩ := h
      split at h
      · cases h
      · next hone =>
        simp only [bind_eq_ok_iff, Except.ok.injEq] at h
        obtain ⟨binary, hbinary, dir, hdir, flags, hflags, scale, hscale, fail, hfail, rfl⟩ := h
        exact ⟨hrunner, hprocesses, ⟨layouts, hlayouts, hone, rfl⟩, hbinary, hdir, hflags, hscale,
          hfail⟩
  · rintro ⟨hrunner, hprocesses, ⟨layouts, hlayouts, hone, hhead⟩, hbinary, hdir, hflags, hscale,
      hfail⟩
    refine ⟨some m.runner, hrunner, ?_⟩
    simp only [bind, Except.bind, hprocesses, hlayouts, if_neg hone, hbinary, hdir, hflags, hscale,
      hfail, hhead]

section

variable {options renamed : Options} {option : String}
  (hget : ∀ option v, renamed.get? option = some v ↔ Given options option v)

include hget

theorem not_given_iff : (∀ value, ¬ Given options option value) ↔ renamed.get? option = none := by
  simp only [← hget, Option.eq_none_iff_forall_ne_some, ne_eq]

theorem string?_eq_ok_iff {text : Option String} :
    rules.string? renamed option = .ok text ↔ GivenText options option text := by
  have hgiven : GivenText options option text ↔ renamed.get? option = text.map Value.string := by
    simp only [GivenText, ← hget]
    constructor
    · intro h
      exact Option.ext h
    · intro h value
      rw [h]
  rw [hgiven, OptionRules.string?]
  cases renamed.get? option with
  | none => cases text <;> simp
  | some v => cases v <;> cases text <;> simp

theorem flag_eq_ok_iff {text : String} :
    rules.flag renamed option "false" = .ok text ↔ Flag options option text := by
  have hflag : Flag options option text ↔ (renamed.get? option = none ∧ text = "false") ∨
      ∃ v, renamed.get? option = some v ∧ FlagText v text := by
    constructor
    · rintro (hnone | ⟨hgiven, htext⟩)
      · exact .inl ⟨(not_given_iff hget).1 hnone, rfl⟩
      · exact .inr ⟨_, (hget _ _).2 hgiven, htext⟩
    · rintro (⟨hnone, rfl⟩ | ⟨v, hv, htext⟩)
      · exact .default ((not_given_iff hget).2 hnone)
      · exact .given ((hget _ _).1 hv) htext
  rw [hflag, OptionRules.flag]
  cases renamed.get? option with
  | none => simp [eq_comm]
  | some v =>
    simp only [reduceCtorEq, false_and, false_or, Option.some.injEq, exists_eq_left']
    constructor
    · intro h
      cases v with
      | bool b => cases b <;> cases h <;> constructor
      | string s => cases h; constructor
      | number n => cases h; constructor
      | null => cases h
      | array items => cases h
      | object fields => cases h
    · rintro (_ | _ | _ | _) <;> rfl

theorem processesOf_eq_ok_iff {processes : Processes} :
    processesOf renamed = .ok processes ↔ Asks options processes ∧
      ∀ value, Given options "processes" value → (∃ s, value = .string s) ∨
        ∃ n, value = .int n ∧ 1 ≤ n.toInt ∧ n.toInt ≤ 2 ^ 32 - 1 := by
  have hasks : Asks options processes ↔
      (renamed.get? "processes" = none ∧ processes = .count 1) ∨
      (∃ (k : Int64) (n : UInt32), renamed.get? "processes" = some (.int k) ∧
        k.toInt = n.toNat ∧ processes = .count n) ∨
      ∃ s, renamed.get? "processes" = some (.string s) ∧ processes = .dynamic s := by
    constructor
    · rintro (hnone | ⟨hgiven, hn⟩ | hgiven)
      · exact .inl ⟨(not_given_iff hget).1 hnone, rfl⟩
      · exact .inr (.inl ⟨_, _, (hget _ _).2 hgiven, hn, rfl⟩)
      · exact .inr (.inr ⟨_, (hget _ _).2 hgiven, rfl⟩)
    · rintro (⟨hnone, rfl⟩ | ⟨k, n, hk, hn, rfl⟩ | ⟨s, hs, rfl⟩)
      · exact .default ((not_given_iff hget).2 hnone)
      · exact .count ((hget _ _).1 hk) hn
      · exact .dynamic ((hget _ _).1 hs)
  simp only [hasks, ← hget]
  rw [processesOf]
  cases renamed.get? "processes" with
  | none => simp [eq_comm]
  | some v =>
    cases v with
    | string s => simp [eq_comm, Value.int]
    | number n =>
      cases n with
      | integer w =>
        dsimp only
        split
        · next hw =>
          obtain ⟨k, hk⟩ : ∃ k : Int64, k.toInt = w.val :=
            ⟨.ofInt w.val, Int64.toInt_ofInt_of_le (by omega) (by omega)⟩
          have hcount := toNat_ofNat_toNat hw.1 hw.2
          rw [Value.integer_eq_int_iff.2 hk]
          constructor
          · intro h
            cases h
            refine ⟨.inr (.inl ⟨k, _, rfl, by omega, rfl⟩), fun value hvalue => .inr ?_⟩
            exact ⟨k, (Option.some.inj hvalue).symm, by omega, by omega⟩
          · rintro ⟨⟨h, -⟩ | ⟨k', n, h, hn, rfl⟩ | ⟨s, h, -⟩, -⟩
            · cases h
            · obtain rfl := Value.int_inj.1 (Option.some.inj h)
              rw [← UInt32.toNat_inj.1 (show (UInt32.ofNat w.val.toNat).toNat = n.toNat by omega)]
            · cases h
        · next hw =>
          constructor
          · intro h
            cases h
          · rintro ⟨-, hvalue⟩
            obtain ⟨s, h⟩ | ⟨k, h, hrange⟩ := hvalue _ rfl
            · cases h
            · have hk := Value.integer_eq_int_iff.1 h
              omega
      | double bits => simp [Value.int]
    | null => simp [Value.int]
    | bool b => simp [Value.int]
    | array items => simp [Value.int]
    | object fields => simp [Value.int]

end

/-! ## The layouts among the options -/

/-- The layouts that are given, in the order of their keys. -/
structure Lists (options : Options) (layouts : List (String × Value)) : Prop where
  mem_iff : ∀ p value, p ≠ "" →
    (Given options (p ++ "_layout") value ↔ (p ++ "_layout", value) ∈ layouts)
  key : ∀ e ∈ layouts, ∃ p, p ≠ "" ∧ e.1 = p ++ "_layout"
  sorted : layouts.Pairwise fun a b => a.1 < b.1

theorem lists_filter {options renamed : Options}
    (hget : ∀ option v, renamed.get? option = some v ↔ Given options option v) :
    Lists options (renamed.entries.filter fun e => isLayoutKey e.1) where
  mem_iff p value hp := by
    rw [List.mem_filter, ← hget, Dict.get?_eq_some_iff]
    exact (and_iff_left (isLayoutKey_layoutKey hp)).symm
  key e he := isLayoutKey_iff.1 (List.mem_filter.1 he).2
  sorted := renamed.sorted.sublist List.filter_sublist

theorem length_of_mapM {ε α β : Type} {f : α → Except ε β} {l : List α} {l' : List β}
    (h : l.mapM f = .ok l') : l'.length = l.length := by
  induction l generalizing l' with
  | nil =>
    cases h
    rfl
  | cons a l ih =>
    rw [List.mapM_cons, bind_eq_ok_iff] at h
    obtain ⟨b, -, h⟩ := h
    rw [bind_eq_ok_iff] at h
    obtain ⟨rest, hrest, h⟩ := h
    cases h
    rw [List.length_cons, List.length_cons, ih hrest]

theorem Lists.ofOption_iff {options : Options} {l : List (String × Value)} (h : Lists options l)
    {layout : Option CollectionLayout} :
    (∃ layouts, (l.mapM fun e => CollectionLayout.ofOption e.1 e.2) = .ok layouts ∧
      ¬ layouts.length > 1 ∧ layouts.head? = layout) ↔
    Deals options layout ∧ LayoutGrammar options := by
  obtain ⟨hmem, hkey, hsorted⟩ := h
  match l with
  | [] =>
    have hnone (p : String) (value : Value) (hp : p ≠ "") :
        ¬ Given options (p ++ "_layout") value := by
      rw [hmem p value hp]
      exact List.not_mem_nil
    constructor
    · rintro ⟨layouts, hlayouts, -, rfl⟩
      cases hlayouts
      exact ⟨.default hnone, fun p value hp hgiven => absurd hgiven (hnone p value hp),
        fun p value _ _ hp _ hgiven => absurd hgiven (hnone p value hp)⟩
    · rintro ⟨_ | ⟨hp, hgiven⟩, -⟩
      · exact ⟨[], rfl, by decide, rfl⟩
      · exact absurd hgiven (hnone _ _ hp)
  | [(key, value)] =>
    obtain ⟨p, hp, rfl⟩ := hkey (key, value) (List.mem_singleton_self _)
    have hgiven {q : String} {w : Value} (hq : q ≠ "") :
        Given options (q ++ "_layout") w ↔ q = p ∧ w = value := by
      rw [hmem q w hq, List.mem_singleton, Prod.mk.injEq, String.append_left_inj]
    constructor
    · rintro ⟨layouts, hlayouts, -, rfl⟩
      simp only [List.mapM_cons, List.mapM_nil, bind_eq_ok_iff, pure, Except.pure, Except.ok.injEq,
        exists_eq_left'] at hlayouts
      obtain ⟨layout, hlayout, rfl⟩ := hlayouts
      obtain ⟨fields, hfields, hblocks, hcounts, hparam⟩ := ofOption_eq_ok_iff.1 hlayout
      refine ⟨.given hp ((hgiven hp).2 ⟨rfl, rfl⟩) hfields hcounts hparam, ?_, ?_⟩
      · intro q w hq hw
        obtain ⟨-, rfl⟩ := (hgiven hq).1 hw
        exact ⟨fields, hfields, hblocks⟩
      · intro q w q' w' hq hq' hw hw'
        exact ((hgiven hq).1 hw).1.trans ((hgiven hq').1 hw').1.symm
    · rintro ⟨hdeals, hfields, -⟩
      cases hdeals with
      | default hnone => exact absurd ((hgiven hp).2 ⟨rfl, rfl⟩) (hnone p value hp)
      | @given q w fields layout hq hw hdict hcounts hparam =>
        obtain ⟨rfl, rfl⟩ := (hgiven hq).1 hw
        obtain ⟨fields', hdict', hblocks⟩ := hfields q w hq hw
        cases hdict.symm.trans hdict'
        have hlayout := ofOption_eq_ok_iff.2 ⟨fields, hdict, hblocks, hcounts, hparam⟩
        refine ⟨[layout], ?_, Nat.lt_irrefl 1, rfl⟩
        simp only [List.mapM_cons, List.mapM_nil, hlayout, bind, Except.bind, pure, Except.pure]
  | (key, value) :: (key', value') :: rest =>
    constructor
    · rintro ⟨layouts, hlayouts, hone, -⟩
      rw [length_of_mapM hlayouts, List.length_cons, List.length_cons] at hone
      omega
    · rintro ⟨-, -, hone⟩
      have hlt : key < key' := (List.pairwise_cons.1 hsorted).1 _ List.mem_cons_self
      have hsecond : (key', value') ∈ (key, value) :: (key', value') :: rest :=
        List.mem_cons_of_mem _ List.mem_cons_self
      obtain ⟨p, hp, rfl⟩ := hkey (key, value) List.mem_cons_self
      obtain ⟨q, hq, rfl⟩ := hkey (key', value') hsecond
      have hsame := hone p value q value' hp hq ((hmem p value hp).2 List.mem_cons_self)
        ((hmem q value' hq).2 hsecond)
      subst hsame
      exact absurd hlt (String.lt_irrefl _)

/-! ## The layer -/

theorem given_iff {options : Options} {option : String} {value : Value} :
    Given options option value ↔ rules.Given isLayoutKey options option value := by
  simp only [Given, OptionRules.Given, target?_eq_some_iff]

theorem renames_iff {options : Options} : rules.Renames isLayoutKey options ↔
    (∀ key ∈ options.keys, ∃ option, Names key option) ∧
    ∀ key ∈ options.keys, ∀ other ∈ options.keys, ∀ option,
      Names key option → Names other option → key = other := by
  simp only [← target?_eq_some_iff]
  constructor
  · rintro ⟨hknown, hapart⟩
    refine ⟨hknown, fun key hkey other hother option hoption hoption' => ?_⟩
    exact hapart key hkey other hother (hoption.trans hoption'.symm)
  · rintro ⟨hknown, hapart⟩
    refine ⟨hknown, fun key hkey other hother hsame => ?_⟩
    obtain ⟨option, hoption⟩ := hknown key hkey
    exact hapart key hkey other hother option hoption (hsame.symm.trans hoption)

theorem GivenText.exists_string {options : Options} {option : String} {text : Option String}
    {value : Value} (h : GivenText options option text) (hvalue : Given options option value) :
    ∃ s, value = .string s := by
  obtain ⟨s, -, hs⟩ := Option.map_eq_some_iff.1 ((h value).1 hvalue)
  exact ⟨s, hs.symm⟩

section

variable {options renamed : Options} {option : String}
  (hget : ∀ option v, renamed.get? option = some v ↔ Given options option v)

include hget

theorem Flag.exists_text {text : String} {value : Value} (h : Flag options option text)
    (hvalue : Given options option value) : ∃ text, FlagText value text := by
  cases h with
  | default hnone => exact absurd hvalue (hnone value)
  | given hgiven htext =>
    have hsame := ((hget _ _).2 hvalue).symm.trans ((hget _ _).2 hgiven)
    exact ⟨text, Option.some.inj hsame ▸ htext⟩

theorem exists_givenText (h : ∀ value, Given options option value → ∃ s, value = .string s) :
    ∃ text, GivenText options option text := by
  simp only [GivenText, ← hget] at h ⊢
  cases hoption : renamed.get? option with
  | none => exact ⟨none, fun value => Iff.rfl⟩
  | some value =>
    obtain ⟨s, rfl⟩ := h value hoption
    exact ⟨some s, fun value => Iff.rfl⟩

theorem exists_flag (h : ∀ value, Given options option value → ∃ text, FlagText value text) :
    ∃ text, Flag options option text := by
  cases hoption : renamed.get? option with
  | none => exact ⟨_, .default ((not_given_iff hget).2 hoption)⟩
  | some value =>
    have hgiven := (hget _ _).1 hoption
    obtain ⟨text, htext⟩ := h value hgiven
    exact ⟨text, .given hgiven htext⟩

theorem exists_asks (h : ∀ value, Given options "processes" value →
    (∃ s, value = .string s) ∨ ∃ n, value = .int n ∧ 1 ≤ n.toInt ∧ n.toInt ≤ 2 ^ 32 - 1) :
    ∃ processes, Asks options processes := by
  cases hoption : renamed.get? "processes" with
  | none => exact ⟨_, .default ((not_given_iff hget).2 hoption)⟩
  | some value =>
    have hgiven := (hget _ _).1 hoption
    obtain ⟨s, rfl⟩ | ⟨k, rfl, hone, hmax⟩ := h value hgiven
    · exact ⟨_, .dynamic hgiven⟩
    · exact ⟨_, .count hgiven (toNat_ofNat_toNat hone (by omega)).symm⟩

end

theorem Blocks.exists_counts {fields : Dict Value} (h : Blocks fields) (param : String) :
    ∃ layout, Counts fields layout ∧ layout.param = param := by
  have hnumber (field : String) : ∃ n : Option Int64, fields.get? field = n.map Value.int := by
    cases hfield : fields.get? field with
    | none => exact ⟨none, rfl⟩
    | some value =>
      obtain ⟨n, rfl⟩ := h.whole field value hfield
      exact ⟨some n, rfl⟩
  obtain ⟨count, hcount⟩ := hnumber "block_count"
  obtain ⟨length, hlength⟩ := hnumber "block_length"
  obtain ⟨stride, hstride⟩ := hnumber "stride"
  exact ⟨⟨param, count, length, stride⟩, ⟨hcount, hlength, hstride⟩, rfl⟩

theorem LayoutGrammar.exists_deals {options : Options} (h : LayoutGrammar options) :
    ∃ layout, Deals options layout := by
  by_cases hsome : ∃ p value, p ≠ "" ∧ Given options (p ++ "_layout") value
  · obtain ⟨p, value, hp, hgiven⟩ := hsome
    obtain ⟨fields, hfields, hblocks⟩ := h.fields p value hp hgiven
    obtain ⟨layout, hcounts, hparam⟩ := hblocks.exists_counts (stripLayout (p ++ "_layout"))
    exact ⟨some layout, .given hp hgiven hfields hcounts hparam⟩
  · exact ⟨none, .default fun p value hp hgiven => hsome ⟨p, value, hp, hgiven⟩⟩

/-- Options that keep to the grammar pass the rules. -/
theorem Grammar.exists_check {options : Options} (h : Grammar options) :
    ∃ renamed, rules.check options isLayoutKey = .ok renamed ∧
      ∀ option v, renamed.get? option = some v ↔ Given options option v := by
  have hrenames := renames_iff.2 ⟨h.known, h.apart⟩
  obtain ⟨renamed, hrenamed⟩ := hrenames.exists_rename
  obtain ⟨-, hget⟩ := OptionRules.rename_eq_ok_iff.1 hrenamed
  obtain ⟨s, hrunner⟩ := h.runner
  have hmandatory : ∀ option ∈ rules.mandatory, renamed.contains option = true := by
    intro option hoption
    obtain rfl := List.mem_singleton.1 hoption
    rw [Dict.contains, (hget _ _).2 (given_iff.1 hrunner)]
    rfl
  refine ⟨renamed, OptionRules.check_eq_ok_iff.2 ⟨hrenames, hget, hmandatory⟩, ?_⟩
  simpa only [given_iff] using hget

theorem exists_reads {options : Options} (h : Grammar options) : ∃ m, Reads options m := by
  obtain ⟨renamed, -, hget⟩ := h.exists_check
  obtain ⟨runner, hrunner⟩ := h.runner
  obtain ⟨binary, hbinary⟩ := exists_givenText hget (h.texts "binary" (by decide))
  obtain ⟨processes, hprocesses⟩ := exists_asks hget h.processes
  obtain ⟨workingDir, hdir⟩ := exists_givenText hget (h.texts "working_dir" (by decide))
  obtain ⟨flags, hflags⟩ := exists_givenText hget (h.texts "flags" (by decide))
  obtain ⟨scaleByCu, hscale⟩ := exists_flag hget (h.flags "scale_by_cu" (by decide))
  obtain ⟨failByExitValue, hfail⟩ := exists_flag hget (h.flags "fail_by_exit_value" (by decide))
  obtain ⟨layout, hlayout⟩ := h.layout.exists_deals
  have hrunner' : GivenText options "runner" (some runner) := by
    intro value
    rw [← hget, (hget _ _).2 hrunner]
    rfl
  exact ⟨⟨runner, binary, processes, workingDir, flags, scaleByCu, failByExitValue, layout⟩,
    hrunner', hbinary, hprocesses, hdir, hflags, hscale, hfail, hlayout⟩

theorem ofOptions_iff {options : Options} {m : MpiParallel} :
    ofOptions options = .ok m ↔ Grammar options ∧ Reads options m := by
  rw [ofOptions_eq_ok_iff]
  constructor
  · rintro ⟨renamed, hcheck, hread⟩
    obtain ⟨hrenames, hget, -⟩ := OptionRules.check_eq_ok_iff.1 hcheck
    simp only [← given_iff] at hget
    obtain ⟨hknown, hapart⟩ := renames_iff.1 hrenames
    simp only [string?_eq_ok_iff hget, flag_eq_ok_iff hget, processesOf_eq_ok_iff hget, layoutsOf,
      (lists_filter hget).ofOption_iff] at hread
    obtain ⟨hrunner, ⟨hprocesses, hrange⟩, ⟨hlayout, hlayouts⟩, hbinary, hdir, hflags, hscale,
      hfail⟩ := hread
    refine ⟨⟨hknown, hapart, ⟨m.runner, (hrunner _).2 rfl⟩, hrange, ?_, ?_, hlayouts⟩,
      hrunner, hbinary, hprocesses, hdir, hflags, hscale, hfail, hlayout⟩
    · intro option hoption value hvalue
      simp only [List.mem_cons, List.not_mem_nil, or_false] at hoption
      obtain rfl | rfl | rfl := hoption
      · exact hbinary.exists_string hvalue
      · exact hdir.exists_string hvalue
      · exact hflags.exists_string hvalue
    · intro option hoption value hvalue
      simp only [List.mem_cons, List.not_mem_nil, or_false] at hoption
      obtain rfl | rfl := hoption
      · exact hscale.exists_text hget hvalue
      · exact hfail.exists_text hget hvalue
  · rintro ⟨hgrammar, hreads⟩
    obtain ⟨renamed, hcheck, hget⟩ := hgrammar.exists_check
    refine ⟨renamed, hcheck, ?_⟩
    simp only [string?_eq_ok_iff hget, flag_eq_ok_iff hget, processesOf_eq_ok_iff hget, layoutsOf,
      (lists_filter hget).ofOption_iff]
    exact ⟨hreads.runner, ⟨hreads.processes, hgrammar.processes⟩,
      ⟨hreads.layout, hgrammar.layout⟩, hreads.binary, hreads.workingDir, hreads.flags,
      hreads.scaleByCu, hreads.failByExitValue⟩

/-- **The options of a parallel run.** -/
theorem ofOptions_reads (options : Options) :
    ((∃ m, ofOptions options = .ok m) ↔ Grammar options) ∧
      ∀ m, ofOptions options = .ok m ↔ Grammar options ∧ Reads options m := by
  refine ⟨⟨?_, ?_⟩, fun m => ofOptions_iff⟩
  · rintro ⟨m, hm⟩
    exact (ofOptions_iff.1 hm).1
  · intro h
    obtain ⟨m, hm⟩ := exists_reads h
    exact ⟨m, ofOptions_iff.2 ⟨h, hm⟩⟩

end MpiParallel
end TaskStack
