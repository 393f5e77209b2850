import TaskStack.Proofs.Layer.Intake
import TaskStack.Proofs.Text.ByteOrder
import Mathlib.Data.List.Nodup
import Mathlib.Data.Set.Operations

/-!
# The rules of options

A key stands for an option: an old name for the one that has replaced it, any other key for itself.
The rules say of a key whether they know it, and of an option whether it has to be given. Whether
options pass, what becomes of them and which fault is reported can be read off the keys, with no
account of the walk that finds it out.

**Theorem (`check_decides`).** Options pass exactly when every key is known, no two keys stand for
the same option, and every mandatory option is stood for. They have then become one entry each, the
option that the key stands for with the value of the key. Else the smallest key is reported that is
not known or stands for the option of a smaller one; and if there is no such key, the first
mandatory option that is missing.

* `target?_eq_some_iff`: the option that a key stands for.
* `rename_eq_error_iff`: the fault of the smallest key at fault.
* `Renames.perm_iff`: what has become of the options, entry by entry.
-/

namespace TaskStack

/-- The entries of a map differ. -/
theorem Dict.nodup_entries {α : Type} (d : Dict α) : d.entries.Nodup := by
  refine d.sorted.imp ?_
  rintro a b hlt rfl
  exact String.lt_irrefl _ hlt

namespace OptionRules

variable {r : OptionRules} {dynamic : String → Bool} {options renamed : Options}
  {key option : String} {e : ConfigurationError}

/-! ## Keys -/

/-- The option that a key stands for: its first replacement if it is an old name, else itself. -/
def standsFor (r : OptionRules) (key : String) : String := (r.deprecated.lookup key).getD key

/-- The rules know a key: it is an old name, it is supported, or it is accepted as it comes. -/
def Knows (r : OptionRules) (dynamic : String → Bool) (key : String) : Prop :=
  key ∈ r.deprecated.map Prod.fst ∨ key ∈ r.supported ∨ dynamic key = true

theorem find?_eq_none_iff {l : List (String × String)} :
    l.find? (·.1 = key) = none ↔ key ∉ l.map Prod.fst := by
  simp only [List.find?_eq_none, decide_eq_true_eq, List.mem_map, not_exists, not_and]

theorem map_snd_find? (l : List (String × String)) (key : String) :
    (l.find? (·.1 = key)).map Prod.snd = l.lookup key := by
  induction l with
  | nil => rfl
  | cons p l ih =>
    obtain ⟨old, replacement⟩ := p
    rw [List.lookup_cons]
    by_cases hold : old = key
    · simp [hold]
    · rw [List.find?_cons_of_neg (by simpa using hold), ih, beq_false_of_ne (Ne.symm hold)]

/-- **The option that a key stands for,** if the rules know the key. -/
theorem target?_eq_some_iff :
    r.target? dynamic key = some option ↔ r.Knows dynamic key ∧ r.standsFor key = option := by
  unfold target? Knows standsFor
  rw [← map_snd_find?]
  cases hfind : r.deprecated.find? (·.1 = key) with
  | some p =>
    have hold : key ∈ r.deprecated.map Prod.fst := by
      by_contra hnot
      rw [find?_eq_none_iff.2 hnot] at hfind
      cases hfind
    simp [hold]
  | none => simp [find?_eq_none_iff.1 hfind]

theorem target?_eq_none_iff : r.target? dynamic key = none ↔ ¬ r.Knows dynamic key := by
  rw [Option.eq_none_iff_forall_ne_some]
  constructor
  · intro h hknown
    exact h _ (target?_eq_some_iff.2 ⟨hknown, rfl⟩)
  · rintro h option hoption
    exact h (target?_eq_some_iff.1 hoption).1

/-! ## Faults -/

/-- What is wrong with a key: the rules do not know it, or a smaller key stands for its option. -/
inductive Fault (r : OptionRules) (dynamic : String → Bool) (options : Options) :
    String → ConfigurationError → Prop
  | unknown {key : String} : key ∈ options.keys → ¬ r.Knows dynamic key →
      Fault r dynamic options key (.unsupportedOption r.layer key)
  | twice {key smaller : String} : key ∈ options.keys → r.Knows dynamic key →
      smaller ∈ options.keys → Text.bytes smaller < Text.bytes key →
      r.standsFor smaller = r.standsFor key →
      Fault r dynamic options key (.conflictingOptions r.layer
        ("'" ++ r.standsFor key ++ "' definida dos veces (con su alias obsoleto)"))

theorem accept_eq_error_iff {value : Value} : (r.intake dynamic).accept key value = .error e ↔
    ¬ r.Knows dynamic key ∧ e = .unsupportedOption r.layer key := by
  rw [← target?_eq_none_iff]
  simp only [intake]
  cases r.target? dynamic key <;> simp [eq_comm]

/-- What the walk over the options finds at fault is at fault. -/
theorem fault_of_faulty (h : (r.intake dynamic).Faulty options.entries key e) :
    r.Fault dynamic options key e := by
  cases h with
  | refused hmem haccept =>
    obtain ⟨hunknown, rfl⟩ := accept_eq_error_iff.1 haccept
    exact .unknown (Dict.mem_keys_iff.2 ⟨_, hmem⟩) hunknown
  | clash hmem haccept hsmaller hlt haccept' =>
    obtain ⟨hknown, rfl⟩ := target?_eq_some_iff.1 (accept_eq_ok_iff.1 haccept).1
    obtain ⟨-, hsame⟩ := target?_eq_some_iff.1 (accept_eq_ok_iff.1 haccept').1
    exact .twice (Dict.mem_keys_iff.2 ⟨_, hmem⟩) hknown (Dict.mem_keys_iff.2 ⟨_, hsmaller⟩)
      (Text.bytes_lt_bytes hlt) hsame

/-- A key at fault is found by the walk, unless one before it is. -/
theorem faulty_of_fault (h : r.Fault dynamic options key e) :
    (r.intake dynamic).Faulty options.entries key e ∨
      ∃ smaller e', smaller < key ∧ (r.intake dynamic).Faulty options.entries smaller e' := by
  cases h with
  | unknown hkey hunknown =>
    obtain ⟨value, hmem⟩ := Dict.mem_keys_iff.1 hkey
    exact .inl (.refused hmem (accept_eq_error_iff.2 ⟨hunknown, rfl⟩))
  | @twice smaller hkey hknown hsmaller hlt hsame =>
    obtain ⟨value, hmem⟩ := Dict.mem_keys_iff.1 hkey
    obtain ⟨value', hmem'⟩ := Dict.mem_keys_iff.1 hsmaller
    -- a smaller key that is not known is at fault itself, so the walk ends before the greater one
    by_cases hknown' : r.Knows dynamic smaller
    · exact .inl (.clash hmem (accept_eq_ok_iff.2 ⟨target?_eq_some_iff.2 ⟨hknown, rfl⟩, rfl⟩) hmem'
        (Text.lt_iff_bytes.2 hlt)
        (accept_eq_ok_iff.2 ⟨target?_eq_some_iff.2 ⟨hknown', hsame⟩, rfl⟩))
    · exact .inr ⟨smaller, _, Text.lt_iff_bytes.2 hlt,
        .refused hmem' (accept_eq_error_iff.2 ⟨hknown', rfl⟩)⟩

/-- The fault that is found, said without the walk over the options. -/
theorem rename_eq_error_iff : r.rename dynamic options.entries ∅ = .error e ↔
    ∃ key, r.Fault dynamic options key e ∧
      ∀ other e', r.Fault dynamic options other e' → key ≤ other := by
  rw [rename_eq_take, Intake.take_eq_error_iff options.sorted]
  exact Intake.exists_least_congr fault_of_faulty faulty_of_fault

/-! ## What becomes of the options -/

theorem renames_iff_injOn : r.Renames dynamic options ↔
    (∀ key ∈ options.keys, r.Knows dynamic key) ∧
      Set.InjOn r.standsFor {key | key ∈ options.keys} := by
  constructor
  · intro h
    have hknown : ∀ key ∈ options.keys, r.Knows dynamic key := by
      intro key hkey
      obtain ⟨option, hoption⟩ := h.known key hkey
      exact (target?_eq_some_iff.1 hoption).1
    refine ⟨hknown, fun key hkey other hother hsame => h.apart key hkey other hother ?_⟩
    rw [target?_eq_some_iff.2 ⟨hknown key hkey, rfl⟩,
      target?_eq_some_iff.2 ⟨hknown other hother, rfl⟩, hsame]
  · rintro ⟨hknown, hinj⟩
    have htarget : ∀ key ∈ options.keys, r.target? dynamic key = some (r.standsFor key) :=
      fun key hkey => target?_eq_some_iff.2 ⟨hknown key hkey, rfl⟩
    refine ⟨fun key hkey => ⟨_, htarget key hkey⟩, fun key hkey other hother hsame => ?_⟩
    rw [htarget key hkey, htarget other hother] at hsame
    exact hinj hkey hother (Option.some.inj hsame)

/-- Options are renamed or at fault. -/
theorem renames_iff_not_fault :
    r.Renames dynamic options ↔ ∀ key e, ¬ r.Fault dynamic options key e := by
  rw [renames_iff, Intake.accepts_iff]
  exact Intake.forall_not_congr fault_of_faulty faulty_of_fault

theorem Renames.given_iff (h : r.Renames dynamic options) {value : Value} :
    r.Given dynamic options option value ↔
      (option, value) ∈ options.entries.map fun o => (r.standsFor o.1, o.2) := by
  have hknown := (renames_iff_injOn.1 h).1
  rw [List.mem_map]
  constructor
  · rintro ⟨key, hmem, hoption⟩
    exact ⟨(key, value), hmem, by rw [(target?_eq_some_iff.1 hoption).2]⟩
  · rintro ⟨⟨key, value'⟩, hmem, heq⟩
    cases heq
    exact ⟨key, hmem, target?_eq_some_iff.2 ⟨hknown key (Dict.mem_keys_iff.2 ⟨_, hmem⟩), rfl⟩⟩

/-- **Every option has become one entry,** under the name that its key stands for. -/
theorem Renames.perm_iff (h : r.Renames dynamic options) :
    renamed.entries.Perm (options.entries.map fun o => (r.standsFor o.1, o.2)) ↔
      ∀ option value, renamed.get? option = some value ↔ r.Given dynamic options option value := by
  have hinj := (renames_iff_injOn.1 h).2
  have hmap : (options.entries.map fun o => (r.standsFor o.1, o.2)).Nodup := by
    refine options.nodup_entries.map_on ?_
    rintro ⟨key, value⟩ hmem ⟨other, value'⟩ hmem' heq
    obtain ⟨hsame, rfl⟩ := Prod.mk.inj heq
    rw [hinj (Dict.mem_keys_iff.2 ⟨_, hmem⟩) (Dict.mem_keys_iff.2 ⟨_, hmem'⟩) hsame]
  -- neither list has an entry twice, so it is enough that they have the same entries
  rw [List.perm_ext_iff_of_nodup renamed.nodup_entries hmap, Prod.forall]
  simp only [Dict.get?_eq_some_iff, h.given_iff]

/-! ## The check -/

/-- The options that the keys stand for. -/
def given (r : OptionRules) (options : Options) : List String := options.keys.map r.standsFor

/-- Options pass: every key is known, no two stand for the same, and no mandatory one is missing. -/
structure Passes (r : OptionRules) (dynamic : String → Bool) (options : Options) : Prop where
  known : ∀ key ∈ options.keys, r.Knows dynamic key
  injective : Set.InjOn r.standsFor {key | key ∈ options.keys}
  complete : ∀ option ∈ r.mandatory, option ∈ r.given options

/-- The first of the mandatory options, as they are declared, that no key stands for. -/
def FirstMissing (r : OptionRules) (options : Options) (missing : String) : Prop :=
  missing ∉ r.given options ∧ ∃ before after, r.mandatory = before ++ missing :: after ∧
    ∀ option ∈ before, option ∈ r.given options

/-- An option is there after the renaming when a key stands for it. -/
theorem contains_iff (h : r.rename dynamic options.entries ∅ = .ok renamed) :
    renamed.contains option = true ↔ option ∈ r.given options := by
  obtain ⟨hrenames, hget⟩ := rename_eq_ok_iff.1 h
  have hperm := hrenames.perm_iff.2 hget
  have hnames : renamed.keys.Perm (r.given options) := by
    have hmapped := hperm.map Prod.fst
    rw [List.map_map] at hmapped
    rw [given, Dict.keys, Dict.keys, List.map_map]
    exact hmapped
  rw [← hnames.mem_iff, Dict.mem_keys_iff, Dict.contains, Option.isSome_iff_exists]
  simp only [Dict.get?_eq_some_iff]

theorem find?_mandatory_iff (h : r.rename dynamic options.entries ∅ = .ok renamed)
    {missing : String} : r.mandatory.find? (!renamed.contains ·) = some missing ↔
      r.FirstMissing options missing := by
  rw [List.find?_eq_some_iff_append]
  simp only [Bool.not_eq_true', Bool.not_not, Bool.eq_false_iff, ne_eq, contains_iff h,
    FirstMissing]

theorem check_eq_error_iff : r.check options dynamic = .error e ↔
    r.rename dynamic options.entries ∅ = .error e ∨
      ∃ renamed missing, r.rename dynamic options.entries ∅ = .ok renamed ∧
        r.FirstMissing options missing ∧ e = .missingOption r.layer missing := by
  unfold check
  cases hrename : r.rename dynamic options.entries ∅ with
  | error e' => simp [bind, Except.bind]
  | ok renamed =>
    simp only [bind, Except.bind, reduceCtorEq, false_or, Except.ok.injEq, exists_and_left,
      exists_eq_left', ← find?_mandatory_iff hrename]
    cases r.mandatory.find? (!renamed.contains ·) with
    | none => simp
    | some missing => simp [eq_comm]

/-- Options that pass, and what they have become. -/
theorem check_eq_ok_iff_passes : r.check options dynamic = .ok renamed ↔
    r.Passes dynamic options ∧
      renamed.entries.Perm (options.entries.map fun o => (r.standsFor o.1, o.2)) := by
  rw [check_eq_ok_iff]
  constructor
  · rintro ⟨hrenames, hget, hall⟩
    have hrename := rename_eq_ok_iff.2 ⟨hrenames, hget⟩
    obtain ⟨hknown, hinj⟩ := renames_iff_injOn.1 hrenames
    exact ⟨⟨hknown, hinj, fun option hoption => (contains_iff hrename).1 (hall option hoption)⟩,
      hrenames.perm_iff.2 hget⟩
  · rintro ⟨⟨hknown, hinj, hcomplete⟩, hperm⟩
    have hrenames := renames_iff_injOn.2 ⟨hknown, hinj⟩
    have hget := hrenames.perm_iff.1 hperm
    have hrename := rename_eq_ok_iff.2 ⟨hrenames, hget⟩
    exact ⟨hrenames, hget, fun option hoption =>
      (contains_iff hrename).2 (hcomplete option hoption)⟩

theorem Passes.exists_check (h : r.Passes dynamic options) :
    ∃ renamed, r.check options dynamic = .ok renamed := by
  have hrenames := renames_iff_injOn.2 ⟨h.known, h.injective⟩
  obtain ⟨renamed, hrename⟩ := hrenames.exists_rename
  have hget := (rename_eq_ok_iff.1 hrename).2
  exact ⟨renamed, check_eq_ok_iff_passes.2 ⟨h, hrenames.perm_iff.2 hget⟩⟩

/-- **The rules decide and rename.** -/
theorem check_decides (r : OptionRules) (dynamic : String → Bool) (options : Options) :
    ((∃ renamed, r.check options dynamic = .ok renamed) ↔ r.Passes dynamic options) ∧
    (∀ renamed, r.check options dynamic = .ok renamed ↔ r.Passes dynamic options ∧
      renamed.entries.Perm (options.entries.map fun o => (r.standsFor o.1, o.2))) ∧
    ∀ e, r.check options dynamic = .error e ↔
      (∃ key, r.Fault dynamic options key e ∧ ∀ other e', r.Fault dynamic options other e' →
        key = other ∨ Text.bytes key < Text.bytes other) ∨
      (∀ key e', ¬ r.Fault dynamic options key e') ∧
        ∃ missing, r.FirstMissing options missing ∧ e = .missingOption r.layer missing := by
  refine ⟨⟨?_, Passes.exists_check⟩, fun renamed => check_eq_ok_iff_passes, fun e => ?_⟩
  · rintro ⟨renamed, hcheck⟩
    exact (check_eq_ok_iff_passes.1 hcheck).1
  · rw [check_eq_error_iff, rename_eq_error_iff]
    simp only [Text.le_iff_bytes]
    refine or_congr_right ⟨?_, ?_⟩
    · rintro ⟨renamed, missing, hrename, hmissing⟩
      exact ⟨renames_iff_not_fault.1 (rename_eq_ok_iff.1 hrename).1, missing, hmissing⟩
    · rintro ⟨hsound, missing, hmissing⟩
      obtain ⟨renamed, hrename⟩ := (renames_iff_not_fault.2 hsound).exists_rename
      exact ⟨renamed, missing, hrename, hmissing⟩

/-- Two names that have been exchanged: a key may be an old name and what another stands for. -/
example :
    let r : OptionRules := { layer := "@demo", deprecated := [("a", "b"), ("b", "a")] }
    ((r.check (.ofList [("a", .int 1), ("b", .int 2)]) fun _ => false).map fun renamed =>
        renamed.entries) = .ok [("a", .int 2), ("b", .int 1)] := by
  rfl

end OptionRules
end TaskStack
