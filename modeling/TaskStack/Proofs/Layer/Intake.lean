import TaskStack.Layer.Constraint

/-!
# Options are taken in one after another

Layers take their options in alike: an option is refused, or it is kept under a name of its own, and
no two may be kept under the same. Since options are gone through in the order of their keys, of
several faults the one of the smallest key is found. So what a walk finds can be said without the
walk, option by option.

**State.** What is kept of the options before (`Intake.Keeps`): an entry for each of them, under its
name. One option more keeps this true, or is the first at fault.

* `Intake.take_eq_ok_iff`: nothing is at fault exactly when a map is made, and what is in it.
* `Intake.take_eq_error_iff`: the fault of the smallest key at fault.
* `Intake.accepts_iff`: nothing is at fault when every option is kept under a name of its own.
* `OptionRules.rename_eq_take`, `ResourceConstraint.gather_eq_take`: the walks of the layers.
* `OptionRules.check_eq_ok_iff`: the options that pass the rules of a layer.
-/

namespace TaskStack

/-- One step after another succeeds when each of them does. -/
theorem bind_eq_ok_iff {ε α β : Type} {x : Except ε α} {f : α → Except ε β} {b : β} :
    x >>= f = .ok b ↔ ∃ a, x = .ok a ∧ f a = .ok b := by
  cases x <;> simp [bind, Except.bind]

theorem Dict.mem_keys_iff {α : Type} {d : Dict α} {key : String} :
    key ∈ d.keys ↔ ∃ value, (key, value) ∈ d.entries := by
  rw [keys, List.mem_map]
  constructor
  · rintro ⟨⟨key, value⟩, hmem, rfl⟩
    exact ⟨value, hmem⟩
  · rintro ⟨value, hmem⟩
    exact ⟨_, hmem, rfl⟩

/-- A name that is not there makes an entry more. -/
theorem Dict.length_insert {α : Type} {d : Dict α} {k : String} {v : α}
    (h : d.contains k = false) : (d.insert k v).entries.length = d.entries.length + 1 := by
  obtain ⟨l, hl⟩ := d
  simp only [contains, get?, Option.isSome_eq_false_iff, Option.isNone_iff_eq_none] at h
  simp only [insert]
  clear hl
  induction l with
  | nil => rfl
  | cons e rest ih =>
    rw [findEntry] at h
    split at h
    · cases h
    · next hne =>
      rw [insertEntry, if_neg (Ne.symm hne)]
      split
      · rfl
      · rw [List.length_cons, ih h, List.length_cons]

/-- How a layer takes options in: what it keeps of an option and under which name, or what is wrong
with it, and what is wrong when a name is taken already. -/
structure Intake (α : Type) where
  accept : String → Value → Except ConfigurationError (String × α)
  clash : String → ConfigurationError

namespace Intake

variable {α : Type} {i : Intake α}

/-- Takes options in one after another. -/
def take (i : Intake α) : List (String × Value) → Dict α → Except ConfigurationError (Dict α)
  | [], taken => .ok taken
  | (key, value) :: rest, taken =>
    match i.accept key value with
    | .error e => .error e
    | .ok (name, a) =>
      if taken.contains name then .error (i.clash name) else i.take rest (taken.insert name a)

/-- An option is at fault: it is refused, or one with a smaller key has its name. -/
inductive Faulty (i : Intake α) (options : List (String × Value)) :
    String → ConfigurationError → Prop
  | refused {key : String} {value : Value} {e : ConfigurationError} :
      (key, value) ∈ options → i.accept key value = .error e → Faulty i options key e
  | clash {key smaller name : String} {value value' : Value} {a a' : α} :
      (key, value) ∈ options → i.accept key value = .ok (name, a) →
      (smaller, value') ∈ options → smaller < key → i.accept smaller value' = .ok (name, a') →
      Faulty i options key (i.clash name)

/-- What is kept of options none of which is at fault. -/
structure Keeps (i : Intake α) (options : List (String × Value)) (taken : Dict α) : Prop where
  sound : ∀ key e, ¬ i.Faulty options key e
  get?_iff : ∀ name a, taken.get? name = some a ↔
    ∃ key value, (key, value) ∈ options ∧ i.accept key value = .ok (name, a)

section

variable {options before rest : List (String × Value)} {taken kept : Dict α} {key name : String}
  {value : Value} {a : α} {e : ConfigurationError}

/-! ## Options in the order of their keys -/

/-- With keys in order, a key has one value. -/
theorem eq_of_mem {v v' : Value} (hsorted : options.Pairwise fun a b => a.1 < b.1)
    (h : (key, v) ∈ options) (h' : (key, v') ∈ options) : v = v' :=
  Option.some.inj ((Dict.findEntry_of_mem hsorted h).symm.trans (Dict.findEntry_of_mem hsorted h'))

theorem lt_of_mem_before (hsorted : (before ++ (key, value) :: rest).Pairwise fun a b => a.1 < b.1)
    {earlier : String} {v : Value} (h : (earlier, v) ∈ before) : earlier < key :=
  (List.pairwise_append.1 hsorted).2.2 _ h _ List.mem_cons_self

/-- A smaller key stands before. -/
theorem mem_before (hsorted : (before ++ (key, value) :: rest).Pairwise fun a b => a.1 < b.1)
    {smaller : String} {v : Value} (h : (smaller, v) ∈ before ++ (key, value) :: rest)
    (hlt : smaller < key) : (smaller, v) ∈ before := by
  have hafter := (List.pairwise_cons.1 (List.pairwise_append.1 hsorted).2.1).1
  rcases List.mem_append.1 h with h | h
  · exact h
  · rcases List.mem_cons.1 h with h | h
    · cases h
      exact absurd hlt (String.lt_irrefl _)
    · exact absurd (String.lt_trans hlt (hafter _ h)) (String.lt_irrefl _)

/-- A key has one fault. -/
theorem Faulty.unique {e' : ConfigurationError} (hsorted : options.Pairwise fun a b => a.1 < b.1)
    (h : i.Faulty options key e) (h' : i.Faulty options key e') : e = e' := by
  cases h with
  | refused hmem haccept =>
    cases h' with
    | refused hmem' haccept' =>
      cases eq_of_mem hsorted hmem hmem'
      exact Except.error.inj (haccept.symm.trans haccept')
    | clash hmem' haccept' =>
      cases eq_of_mem hsorted hmem hmem'
      cases haccept.symm.trans haccept'
  | clash hmem haccept =>
    cases h' with
    | refused hmem' haccept' =>
      cases eq_of_mem hsorted hmem hmem'
      cases haccept.symm.trans haccept'
    | clash hmem' haccept' =>
      cases eq_of_mem hsorted hmem hmem'
      cases haccept.symm.trans haccept'
      rfl

/-- Options after it do not matter to an option. -/
theorem Faulty.of_append (hsorted : (before ++ rest).Pairwise fun a b => a.1 < b.1)
    {v : Value} (hkey : (key, v) ∈ before) (h : i.Faulty (before ++ rest) key e) :
    i.Faulty before key e := by
  have hbefore {k : String} {w : Value} (hmem : (k, w) ∈ before ++ rest)
      (hle : k = key ∨ k < key) : (k, w) ∈ before := by
    rcases List.mem_append.1 hmem with hmem | hmem
    · exact hmem
    · have hlt : key < k := (List.pairwise_append.1 hsorted).2.2 _ hkey _ hmem
      rcases hle with rfl | hlt'
      · exact absurd hlt (String.lt_irrefl _)
      · exact absurd (String.lt_trans hlt hlt') (String.lt_irrefl _)
  cases h with
  | refused hmem haccept => exact .refused (hbefore hmem (.inl rfl)) haccept
  | clash hmem haccept hsmaller hlt haccept' =>
    exact .clash (hbefore hmem (.inl rfl)) haccept (hbefore hsmaller (.inr hlt)) hlt haccept'

theorem Faulty.append (h : i.Faulty before key e) (rest : List (String × Value)) :
    i.Faulty (before ++ rest) key e := by
  cases h with
  | refused hmem haccept => exact .refused (List.mem_append_left _ hmem) haccept
  | clash hmem haccept hsmaller hlt haccept' =>
    exact .clash (List.mem_append_left _ hmem) haccept (List.mem_append_left _ hsmaller) hlt
      haccept'

theorem Faulty.exists_mem (h : i.Faulty options key e) : ∃ value, (key, value) ∈ options := by
  cases h with
  | refused hmem => exact ⟨_, hmem⟩
  | clash hmem => exact ⟨_, hmem⟩

/-- No option is refused, and no two have one name. -/
structure Accepts (i : Intake α) (options : List (String × Value)) : Prop where
  known : ∀ {key value}, (key, value) ∈ options → ∃ name a, i.accept key value = .ok (name, a)
  apart : ∀ {key key' value value' name a a'}, (key, value) ∈ options →
    (key', value') ∈ options → i.accept key value = .ok (name, a) →
    i.accept key' value' = .ok (name, a') → key = key'

/-- **Nothing is at fault** when every option is kept under a name of its own. -/
theorem accepts_iff : i.Accepts options ↔ ∀ key e, ¬ i.Faulty options key e := by
  constructor
  · rintro h key e (⟨hmem, herror⟩ | ⟨hmem, haccept, hsmaller, hlt, hsame⟩)
    · obtain ⟨name, a, haccept⟩ := h.known hmem
      cases herror.symm.trans haccept
    · have heq := h.apart hsmaller hmem hsame haccept
      exact String.lt_irrefl _ (heq ▸ hlt)
  · intro hsound
    refine ⟨fun {key value} hmem => ?_, fun {key key' _ _ _ _ _} hmem hmem' haccept haccept' => ?_⟩
    · cases haccept : i.accept key value with
      | error e => exact absurd (.refused hmem haccept) (hsound key e)
      | ok kept => exact ⟨kept.1, kept.2, rfl⟩
    · have hge : ¬ key' < key := fun hlt =>
        hsound _ _ (.clash hmem haccept hmem' hlt haccept')
      have hle : ¬ key < key' := fun hlt =>
        hsound _ _ (.clash hmem' haccept' hmem hlt haccept)
      exact String.le_antisymm (String.not_lt.1 hge) (String.not_lt.1 hle)

/-! ## One option more -/

theorem keeps_nil : i.Keeps [] ∅ where
  sound _ _ h := by obtain ⟨_, hmem⟩ := h.exists_mem; cases hmem
  get?_iff := by simp

/-- **One option more** whose name is free is kept beside the others. -/
theorem Keeps.append_singleton (h : i.Keeps before taken)
    (hsorted : (before ++ [(key, value)]).Pairwise fun a b => a.1 < b.1)
    (haccept : i.accept key value = .ok (name, a)) (hfree : taken.contains name = false) :
    i.Keeps (before ++ [(key, value)]) (taken.insert name a) where
  sound other e hfaulty := by
    obtain ⟨v, hmem⟩ := hfaulty.exists_mem
    rcases List.mem_append.1 hmem with hmem | hmem
    · exact h.sound other e (hfaulty.of_append hsorted hmem)
    · cases List.mem_singleton.1 hmem
      cases hfaulty with
      | refused hmem' haccept' =>
        cases eq_of_mem hsorted hmem' (List.mem_append_right _ (List.mem_singleton_self _))
        cases haccept.symm.trans haccept'
      | clash hmem' haccept' hsmaller hlt hsame =>
        cases eq_of_mem hsorted hmem' (List.mem_append_right _ (List.mem_singleton_self _))
        cases haccept.symm.trans haccept'
        have hheld := (h.get?_iff _ _).2 ⟨_, _, mem_before hsorted hsmaller hlt, hsame⟩
        rw [Dict.contains, hheld] at hfree
        cases hfree
  get?_iff other b := by
    rw [Dict.get?_insert]
    constructor
    · intro hget
      split at hget
      · next hname =>
        cases hget
        exact ⟨key, value, List.mem_append_right _ (List.mem_singleton_self _), hname ▸ haccept⟩
      · obtain ⟨k, v, hmem, hk⟩ := (h.get?_iff _ _).1 hget
        exact ⟨k, v, List.mem_append_left _ hmem, hk⟩
    · rintro ⟨k, v, hmem, hk⟩
      rcases List.mem_append.1 hmem with hmem | hmem
      · have hheld := (h.get?_iff _ _).2 ⟨k, v, hmem, hk⟩
        have hne : name ≠ other := by
          rintro rfl
          rw [Dict.contains, hheld] at hfree
          cases hfree
        rw [if_neg hne, hheld]
      · cases List.mem_singleton.1 hmem
        cases haccept.symm.trans hk
        exact if_pos rfl

/-! ## All options -/

/-- What a walk comes to: all options are kept, or one is at fault and none before it. -/
inductive Ends (i : Intake α) (options : List (String × Value)) :
    Except ConfigurationError (Dict α) → Prop
  | kept {taken : Dict α} : i.Keeps options taken → Ends i options (.ok taken)
  | faulty {key : String} {e : ConfigurationError} : i.Faulty options key e →
      (∀ other e', i.Faulty options other e' → key ≤ other) → Ends i options (.error e)

/-- The first option at fault is the one with the smallest key. -/
theorem Keeps.ends_of_faulty (h : i.Keeps before taken)
    (hsorted : (before ++ (key, value) :: rest).Pairwise fun a b => a.1 < b.1)
    (hfaulty : i.Faulty (before ++ [(key, value)]) key e) :
    i.Ends (before ++ (key, value) :: rest) (.error e) := by
  have happend : before ++ (key, value) :: rest = (before ++ [(key, value)]) ++ rest := by simp
  refine .faulty (happend ▸ hfaulty.append rest) ?_
  intro other e' hother
  refine String.not_lt.1 fun hlt => ?_
  obtain ⟨v, hmem⟩ := hother.exists_mem
  have hbefore := mem_before hsorted hmem hlt
  exact h.sound other e' (hother.of_append hsorted hbefore)

theorem Keeps.ends_take (h : i.Keeps before taken)
    (hsorted : (before ++ rest).Pairwise fun a b => a.1 < b.1) :
    i.Ends (before ++ rest) (i.take rest taken) := by
  induction rest generalizing before taken with
  | nil =>
    rw [List.append_nil]
    exact .kept h
  | cons option rest ih =>
    obtain ⟨key, value⟩ := option
    have happend : before ++ (key, value) :: rest = (before ++ [(key, value)]) ++ rest := by simp
    have hlast : (key, value) ∈ before ++ [(key, value)] :=
      List.mem_append_right _ (List.mem_singleton_self _)
    rw [take]
    split
    · next e haccept => exact h.ends_of_faulty hsorted (.refused hlast haccept)
    · next name a haccept =>
      split
      · next htaken =>
        obtain ⟨a', ha'⟩ := Option.isSome_iff_exists.1 htaken
        obtain ⟨smaller, v, hmem, hsmaller⟩ := (h.get?_iff _ _).1 ha'
        have hlt := lt_of_mem_before hsorted hmem
        exact h.ends_of_faulty hsorted
          (.clash hlast haccept (List.mem_append_left _ hmem) hlt hsmaller)
      · next hfree =>
        rw [happend] at hsorted ⊢
        have hfirst := (List.pairwise_append.1 hsorted).1
        exact ih (h.append_singleton hfirst haccept (by simpa using hfree)) hsorted

theorem ends_take (hsorted : options.Pairwise fun a b => a.1 < b.1) :
    i.Ends options (i.take options ∅) := keeps_nil.ends_take hsorted

/-- **A map is made exactly when no option is at fault,** and it has an entry for each. -/
theorem take_eq_ok_iff (hsorted : options.Pairwise fun a b => a.1 < b.1) :
    i.take options ∅ = .ok taken ↔ i.Keeps options taken := by
  constructor
  · intro h
    have hends := i.ends_take hsorted
    rw [h] at hends
    cases hends with
    | kept hkeeps => exact hkeeps
  · intro h
    have hends := i.ends_take hsorted
    generalize i.take options ∅ = result at hends
    cases hends with
    | kept hkeeps =>
      refine congrArg Except.ok (Dict.ext_get? fun name => Option.ext fun a => ?_)
      rw [hkeeps.get?_iff, h.get?_iff]
    | faulty hfaulty => exact absurd hfaulty (h.sound _ _)

/-- Every option that is kept has an entry of its own. -/
theorem length_take (h : i.take options taken = .ok kept) :
    kept.entries.length = taken.entries.length + options.length := by
  induction options generalizing taken with
  | nil =>
    cases h
    rfl
  | cons option rest ih =>
    rw [take] at h
    split at h
    · cases h
    · split at h
      · cases h
      · next hfree =>
        rw [ih h, Dict.length_insert (by simpa using hfree), List.length_cons]
        omega

/-- **The fault that is found is that of the smallest key at fault.** -/
theorem take_eq_error_iff (hsorted : options.Pairwise fun a b => a.1 < b.1) :
    i.take options ∅ = .error e ↔
      ∃ key, i.Faulty options key e ∧ ∀ other e', i.Faulty options other e' → key ≤ other := by
  have hends := i.ends_take hsorted
  generalize i.take options ∅ = result at hends
  constructor
  · rintro rfl
    cases hends with
    | faulty hfaulty hleast => exact ⟨_, hfaulty, hleast⟩
  · rintro ⟨key, hfaulty, hleast⟩
    cases hends with
    | kept hkeeps => exact absurd hfaulty (hkeeps.sound _ _)
    | faulty hfaulty' hleast' =>
      cases String.le_antisymm (hleast _ _ hfaulty') (hleast' _ _ hfaulty)
      exact congrArg Except.error (hfaulty'.unique hsorted hfaulty)

end

/-! ## Two accounts of faults

What the first finds the second finds too, and what only the second finds comes after a fault of the
first. -/

section

variable {Found Named : String → ConfigurationError → Prop}

theorem forall_not_congr (hnamed : ∀ {key e}, Found key e → Named key e)
    (hfound : ∀ {key e}, Named key e →
      Found key e ∨ ∃ smaller e', smaller < key ∧ Found smaller e') :
    (∀ key e, ¬ Found key e) ↔ ∀ key e, ¬ Named key e := by
  constructor
  · intro h key e hkey
    obtain hkey | ⟨smaller, e', -, hsmaller⟩ := hfound hkey
    · exact h key e hkey
    · exact h smaller e' hsmaller
  · exact fun h key e hkey => h key e (hnamed hkey)

/-- The smallest key at fault is the same in both. -/
theorem exists_least_congr (hnamed : ∀ {key e}, Found key e → Named key e)
    (hfound : ∀ {key e}, Named key e →
      Found key e ∨ ∃ smaller e', smaller < key ∧ Found smaller e') {e : ConfigurationError} :
    (∃ key, Found key e ∧ ∀ other e', Found other e' → key ≤ other) ↔
      ∃ key, Named key e ∧ ∀ other e', Named other e' → key ≤ other := by
  constructor
  · rintro ⟨key, hkey, hleast⟩
    refine ⟨key, hnamed hkey, fun other e' hother => ?_⟩
    obtain hother | ⟨smaller, e'', hlt, hsmaller⟩ := hfound hother
    · exact hleast other e' hother
    · exact String.le_trans (hleast smaller e'' hsmaller) (String.not_lt.1 (String.lt_asymm hlt))
  · rintro ⟨key, hkey, hleast⟩
    obtain hkey | ⟨smaller, e', hlt, hsmaller⟩ := hfound hkey
    · exact ⟨key, hkey, fun other e' hother => hleast other e' (hnamed hother)⟩
    · exact absurd hlt (String.not_lt.2 (hleast smaller e' (hnamed hsmaller)))

end

end Intake

/-! ## The walks of the layers -/

/-- Options under the names they stand for. -/
def OptionRules.intake (r : OptionRules) (dynamic : String → Bool) : Intake Value where
  accept key value :=
    match r.target? dynamic key with
    | none => .error (.unsupportedOption r.layer key)
    | some target => .ok (target, value)
  clash target := .conflictingOptions r.layer
    ("'" ++ target ++ "' definida dos veces (con su alias obsoleto)")

theorem OptionRules.rename_eq_take (r : OptionRules) (dynamic : String → Bool)
    (options : List (String × Value)) (renamed : Options) :
    r.rename dynamic options renamed = (r.intake dynamic).take options renamed := by
  induction options generalizing renamed with
  | nil => rfl
  | cons option rest ih =>
    simp only [rename, Intake.take, ih, intake]
    cases r.target? dynamic option.1 <;> rfl

/-- An option is given a value under a key that stands for it. -/
def OptionRules.Given (r : OptionRules) (dynamic : String → Bool) (options : Options)
    (option : String) (value : Value) : Prop :=
  ∃ key, (key, value) ∈ options.entries ∧ r.target? dynamic key = some option

/-- Options that may be renamed: every key stands for an option, and no two for the same. -/
structure OptionRules.Renames (r : OptionRules) (dynamic : String → Bool) (options : Options) :
    Prop where
  known : ∀ key ∈ options.keys, ∃ option, r.target? dynamic key = some option
  apart : ∀ key ∈ options.keys, ∀ other ∈ options.keys,
    r.target? dynamic key = r.target? dynamic other → key = other

theorem OptionRules.accept_eq_ok_iff {r : OptionRules} {dynamic : String → Bool}
    {key option : String} {value v : Value} :
    (r.intake dynamic).accept key value = .ok (option, v) ↔
      r.target? dynamic key = some option ∧ value = v := by
  simp only [intake]
  cases r.target? dynamic key <;> simp

theorem OptionRules.renames_iff {r : OptionRules} {dynamic : String → Bool} {options : Options} :
    r.Renames dynamic options ↔ (r.intake dynamic).Accepts options.entries := by
  constructor
  · intro h
    refine ⟨fun {key value} hmem => ?_, fun hmem hmem' haccept haccept' => ?_⟩
    · obtain ⟨option, hoption⟩ := h.known key (Dict.mem_keys_iff.2 ⟨value, hmem⟩)
      exact ⟨option, value, accept_eq_ok_iff.2 ⟨hoption, rfl⟩⟩
    · have hname := (accept_eq_ok_iff.1 haccept).1
      have hname' := (accept_eq_ok_iff.1 haccept').1
      exact h.apart _ (Dict.mem_keys_iff.2 ⟨_, hmem⟩) _ (Dict.mem_keys_iff.2 ⟨_, hmem'⟩)
        (hname.trans hname'.symm)
  · intro h
    have hknown : ∀ key ∈ options.keys, ∃ option, r.target? dynamic key = some option := by
      intro key hkey
      obtain ⟨value, hmem⟩ := Dict.mem_keys_iff.1 hkey
      obtain ⟨option, v, haccept⟩ := h.known hmem
      exact ⟨option, (accept_eq_ok_iff.1 haccept).1⟩
    refine ⟨hknown, fun key hkey other hother hsame => ?_⟩
    obtain ⟨option, hoption⟩ := hknown key hkey
    obtain ⟨value, hmem⟩ := Dict.mem_keys_iff.1 hkey
    obtain ⟨value', hmem'⟩ := Dict.mem_keys_iff.1 hother
    exact h.apart hmem hmem' (accept_eq_ok_iff.2 ⟨hoption, rfl⟩)
      (accept_eq_ok_iff.2 ⟨hsame.symm.trans hoption, rfl⟩)

theorem OptionRules.rename_eq_ok_iff {r : OptionRules} {dynamic : String → Bool}
    {options renamed : Options} : r.rename dynamic options.entries ∅ = .ok renamed ↔
      r.Renames dynamic options ∧
        ∀ option v, renamed.get? option = some v ↔ r.Given dynamic options option v := by
  rw [rename_eq_take, Intake.take_eq_ok_iff options.sorted, renames_iff, Intake.accepts_iff]
  refine Iff.trans ⟨fun h => ⟨h.sound, h.get?_iff⟩, fun h => ⟨h.1, h.2⟩⟩ (and_congr_right' ?_)
  refine forall_congr' fun option => forall_congr' fun v => iff_congr Iff.rfl ?_
  simp only [accept_eq_ok_iff, Given]
  constructor
  · rintro ⟨key, value, hmem, hoption, rfl⟩
    exact ⟨key, hmem, hoption⟩
  · rintro ⟨key, hmem, hoption⟩
    exact ⟨key, v, hmem, hoption, rfl⟩

/-- Options that may be renamed are. -/
theorem OptionRules.Renames.exists_rename {r : OptionRules} {dynamic : String → Bool}
    {options : Options} (h : r.Renames dynamic options) :
    ∃ renamed, r.rename dynamic options.entries ∅ = .ok renamed := by
  have hsound := Intake.accepts_iff.1 (renames_iff.1 h)
  rw [rename_eq_take]
  have hends := (r.intake dynamic).ends_take options.sorted
  generalize (r.intake dynamic).take options.entries ∅ = result at hends
  cases hends with
  | kept => exact ⟨_, rfl⟩
  | faulty hfaulty => exact absurd hfaulty (hsound _ _)

/-- **Options that pass the rules** are those that may be renamed, with what they are given, and
none is missing. -/
theorem OptionRules.check_eq_ok_iff {r : OptionRules} {dynamic : String → Bool}
    {options renamed : Options} : r.check options dynamic = .ok renamed ↔
      r.Renames dynamic options ∧
      (∀ option v, renamed.get? option = some v ↔ r.Given dynamic options option v) ∧
      ∀ option ∈ r.mandatory, renamed.contains option = true := by
  rw [← and_assoc, ← rename_eq_ok_iff, check]
  cases r.rename dynamic options.entries ∅ with
  | error e => simp [bind, Except.bind]
  | ok found =>
    simp only [bind, Except.bind]
    split
    · next missing hmissing =>
      have hnot : found.contains missing = false := by simpa using List.find?_some hmissing
      have hmem := List.mem_of_find?_eq_some hmissing
      constructor
      · intro h
        cases h
      · rintro ⟨h, hall⟩
        cases h
        rw [hall missing hmem] at hnot
        cases hnot
    · next hnone =>
      have hall : ∀ option ∈ r.mandatory, found.contains option = true := by
        simpa using List.find?_eq_none.1 hnone
      constructor
      · intro h
        cases h
        exact ⟨rfl, hall⟩
      · exact And.left

/-- Scalars as texts under the names of their resources. -/
def ResourceConstraint.intake : Intake String where
  accept key value :=
    match Resource.normalize? key with
    | none => .error (.unsupportedOption name key)
    | some resource =>
      match render? value with
      | none => .error (.invalidValue name key "se esperaba un valor escalar")
      | some text => .ok (resource, text)
  clash resource := .conflictingOptions name ("'" ++ resource ++ "' definida dos veces")

theorem ResourceConstraint.gather_eq_take (options : List (String × Value))
    (gathered : Dict String) : gather options gathered = intake.take options gathered := by
  induction options generalizing gathered with
  | nil => rfl
  | cons option rest ih =>
    simp only [gather, Intake.take, ih, intake]
    cases Resource.normalize? option.1 with
    | none => rfl
    | some resource => cases render? option.2 <;> rfl

end TaskStack
