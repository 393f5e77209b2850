import Mathlib
import TaskStack.Proofs.Descriptor.Contract
import TaskStack.Proofs.Layer.Intake
import TaskStack.Proofs.Text.ByteOrder

/-!
# The options of a resource layer

The name of a resource may be written with a capital in place of any of its underscores and the
small letter after it. Names of resources have no capitals, so a key is a way to write one name at
most, and it is found by writing every capital out.

**Theorem (`ofOptions_grammar`).** A resource layer is made of options exactly when there are some,
each writes the name of a resource and has a scalar, and no two write the same name. It has then one
text for each of them. Else the smallest key at fault is reported, with the first thing that is
wrong with it.

* `Resource.normalize?_eq_some_iff`: the ways to write a name.
* `gather_eq_error_iff`: the fault that is found, said without the walk over the options.
-/

namespace TaskStack

namespace Resource

/-! ## Ways to write a name -/

/-- Writes a name: any underscore and the small letter after it may be the capital instead. -/
inductive Spells : List Char → List Char → Prop
  | nil : Spells [] []
  | same (c : Char) {key name : List Char} : Spells key name → Spells (c :: key) (c :: name)
  | capital {c : Char} {key name : List Char} :
      c.isLower = true → Spells key name → Spells (c.toUpper :: key) ('_' :: c :: name)

/-- A character with its capital written out. -/
def spelledOut (c : Char) : List Char := if c.isUpper then ['_', c.toLower] else [c]

theorem toList_snakeCase (key : String) :
    (snakeCase key).toList = key.toList.flatMap spelledOut :=
  String.toList_ofList

/-- A text is a way to write what it is with its capitals written out. -/
theorem spells_spelledOut (key : List Char) : Spells key (key.flatMap spelledOut) := by
  induction key with
  | nil => exact .nil
  | cons c key ih =>
    rw [List.flatMap_cons, spelledOut]
    split
    · next h =>
      have hlower : c.toLower.isLower = true := by simp [Char.isAlpha, h]
      have hback : c.toLower.toUpper = c := by
        rw [Char.toUpper_toLower_eq_toUpper,
          Char.toUpper_eq_of_not_isLower (Char.not_isLower_of_isUpper h)]
      have := Spells.capital hlower ih
      rwa [hback] at this
    · exact .same c ih

/-- A text without capitals is what its ways to be written spell out. -/
theorem flatMap_spelledOut {key name : List Char} (h : Spells key name)
    (hname : ∀ c ∈ name, c.isUpper = false) : key.flatMap spelledOut = name := by
  induction h with
  | nil => rfl
  | same c _ ih =>
    obtain ⟨hc, hname⟩ := List.forall_mem_cons.1 hname
    rw [List.flatMap_cons, ih hname, spelledOut, hc]
    rfl
  | @capital c key name hlower _ ih =>
    obtain ⟨-, hname⟩ := List.forall_mem_cons.1 hname
    obtain ⟨-, hname⟩ := List.forall_mem_cons.1 hname
    have hupper : c.toUpper.isUpper = true := by simp [Char.isAlpha, hlower]
    have hback : c.toUpper.toLower = c := by
      rw [Char.toLower_toUpper_eq_toLower,
        Char.toLower_eq_of_not_isUpper (Char.not_isUpper_of_isLower hlower)]
    rw [List.flatMap_cons, ih hname, spelledOut, hupper, hback]
    rfl

theorem not_isUpper_of_isRecognized {resource : String} (h : isRecognized resource = true) :
    ∀ c ∈ resource.toList, c.isUpper = false := by
  have hall : (recognized.all fun r => r.toList.all fun c => !c.isUpper) = true := by
    decide +kernel
  have hresource := List.all_eq_true.1 hall resource (List.contains_iff_mem.1 h)
  intro c hc
  simpa using List.all_eq_true.1 hresource c hc

/-- **A key stands for a name exactly when it is a way to write it.** -/
theorem normalize?_eq_some_iff {key resource : String} : normalize? key = some resource ↔
    isRecognized resource = true ∧ Spells key.toList resource.toList := by
  constructor
  · intro h
    have hsame : resource = snakeCase key := by simpa using List.find?_some h
    refine ⟨isRecognized_of_normalize? h, ?_⟩
    rw [hsame, toList_snakeCase]
    exact spells_spelledOut _
  · rintro ⟨hrecognized, hspells⟩
    have hsame : resource = snakeCase key := by
      rw [← String.toList_inj, toList_snakeCase]
      exact (flatMap_spelledOut hspells (not_isUpper_of_isRecognized hrecognized)).symm
    have hsome : (normalize? key).isSome = true :=
      List.find?_isSome.2 ⟨resource, List.contains_iff_mem.1 hrecognized, by simpa using hsame⟩
    obtain ⟨found, hfound⟩ := Option.isSome_iff_exists.1 hsome
    have hfound' : found = snakeCase key := by simpa using List.find?_some hfound
    rw [hfound, hfound', hsame]

end Resource

namespace ResourceConstraint

/-! ## Faults -/

/-- The text of a scalar. -/
inductive Renders : Value → String → Prop
  | string (s : String) : Renders (.string s) s
  | number (n : Number) : Renders (.number n) n.text
  | yes : Renders (.bool true) "true"
  | no : Renders (.bool false) "false"

theorem render?_eq_some_iff {value : Value} {text : String} :
    render? value = some text ↔ Renders value text := by
  constructor
  · intro h
    cases value with
    | string s => cases h; exact .string _
    | number n => cases h; exact .number _
    | bool b => cases b <;> cases h <;> constructor
    | null => cases h
    | array items => cases h
    | object fields => cases h
  · rintro (_ | _ | _ | _) <;> rfl

theorem render?_eq_none_iff {value : Value} :
    render? value = none ↔ ∀ text, ¬ Renders value text := by
  simp only [Option.eq_none_iff_forall_ne_some, ne_eq, render?_eq_some_iff]

/-- What is wrong with the option of a key, the first thing first: the key writes no name, the value
is no scalar, or a smaller key writes the same name. -/
inductive Fault (options : Options) : String → ConfigurationError → Prop
  | unknown {key : String} {value : Value} :
      (key, value) ∈ options.entries → Resource.normalize? key = none →
      Fault options key (.unsupportedOption name key)
  | noScalar {key resource : String} {value : Value} :
      (key, value) ∈ options.entries → Resource.normalize? key = some resource →
      (∀ text, ¬ Renders value text) →
      Fault options key (.invalidValue name key "se esperaba un valor escalar")
  | twice {key smaller resource text : String} {value : Value} :
      (key, value) ∈ options.entries → Resource.normalize? key = some resource →
      Renders value text → smaller ∈ options.keys → smaller < key →
      Resource.normalize? smaller = some resource →
      Fault options key (.conflictingOptions name ("'" ++ resource ++ "' definida dos veces"))

theorem accept_eq_ok_iff {key resource text : String} {value : Value} :
    intake.accept key value = .ok (resource, text) ↔
      Resource.normalize? key = some resource ∧ Renders value text := by
  rw [← render?_eq_some_iff]
  simp only [intake]
  cases Resource.normalize? key with
  | none => simp
  | some r => cases render? value <;> simp

section

variable {options : Options} {key : String} {e : ConfigurationError} {c : ResourceConstraint}

/-- What a walk over the options finds at fault is at fault. -/
theorem fault_of_faulty (h : intake.Faulty options.entries key e) : Fault options key e := by
  cases h with
  | @refused value _ hmem haccept =>
    simp only [intake] at haccept
    split at haccept
    · next hname =>
      cases haccept
      exact .unknown hmem hname
    · next resource hname =>
      split at haccept
      · next hvalue =>
        cases haccept
        exact .noScalar hmem hname (render?_eq_none_iff.1 hvalue)
      · cases haccept
  | clash hmem haccept hsmaller hlt haccept' =>
    obtain ⟨hname, hvalue⟩ := accept_eq_ok_iff.1 haccept
    obtain ⟨hsame, -⟩ := accept_eq_ok_iff.1 haccept'
    exact .twice hmem hname hvalue (Dict.mem_keys_iff.2 ⟨_, hsmaller⟩) hlt hsame

/-- An option at fault is found by a walk, unless one before it is. -/
theorem faulty_of_fault (h : Fault options key e) : intake.Faulty options.entries key e ∨
    ∃ smaller e', smaller < key ∧ intake.Faulty options.entries smaller e' := by
  cases h with
  | @unknown value hmem hname =>
    refine .inl (.refused hmem ?_)
    simp only [intake, hname]
  | @noScalar resource value hmem hname hvalue =>
    refine .inl (.refused hmem ?_)
    simp only [intake, hname, render?_eq_none_iff.2 hvalue]
  | @twice smaller resource text value hmem hname hvalue hsmaller hlt hsame =>
    obtain ⟨value', hmem'⟩ := Dict.mem_keys_iff.1 hsmaller
    cases hvalue' : render? value' with
    | none =>
      have haccept : intake.accept smaller value' =
          .error (.invalidValue name smaller "se esperaba un valor escalar") := by
        simp only [intake, hsame, hvalue']
      exact .inr ⟨smaller, _, hlt, .refused hmem' haccept⟩
    | some text' =>
      exact .inl (.clash hmem (accept_eq_ok_iff.2 ⟨hname, hvalue⟩) hmem' hlt
        (accept_eq_ok_iff.2 ⟨hsame, render?_eq_some_iff.1 hvalue'⟩))

/-- The smallest key at fault is the one that a walk finds. -/
theorem gather_eq_error_iff : gather options.entries ∅ = .error e ↔
    ∃ key, Fault options key e ∧ ∀ other e', Fault options other e' → key ≤ other := by
  rw [gather_eq_take, Intake.take_eq_error_iff options.sorted]
  exact Intake.exists_least_congr fault_of_faulty faulty_of_fault

theorem Fault.ne_nil (h : Fault options key e) : options.entries ≠ [] := by
  intro hempty
  cases h with
  | unknown hmem | noScalar hmem | twice hmem =>
    rw [hempty] at hmem
    cases hmem

/-! ## What is accepted -/

/-- What a resource layer asks of its options. -/
structure Grammar (options : Options) : Prop where
  notEmpty : options.entries ≠ []
  known : ∀ key ∈ options.keys, ∃ resource, Resource.normalize? key = some resource
  scalar : ∀ key value, (key, value) ∈ options.entries → ∃ text, Renders value text
  apart : ∀ key ∈ options.keys, ∀ other ∈ options.keys,
    Resource.normalize? key = Resource.normalize? other → key = other

/-- The layer has one text for each of the options, under the name that its key writes. -/
structure MadeOf (c : ResourceConstraint) (options : Options) : Prop where
  get?_iff : ∀ resource text, c.constraints.get? resource = some text ↔
    ∃ key value, (key, value) ∈ options.entries ∧ Resource.normalize? key = some resource ∧
      Renders value text
  length : c.constraints.entries.length = options.entries.length
  recognized : ∀ resource ∈ c.constraints.keys, Resource.isRecognized resource = true

theorem accepts_iff :
    intake.Accepts options.entries ↔ ∀ key e, ¬ Fault options key e := by
  rw [Intake.accepts_iff]
  exact Intake.forall_not_congr fault_of_faulty faulty_of_fault

/-- Options are accepted when there are some and none of them is at fault. -/
theorem grammar_iff :
    Grammar options ↔ options.entries ≠ [] ∧ ∀ key e, ¬ Fault options key e := by
  rw [← accepts_iff]
  constructor
  · intro h
    refine ⟨h.notEmpty, fun {key value} hmem => ?_, fun hmem hmem' haccept haccept' => ?_⟩
    · obtain ⟨resource, hname⟩ := h.known key (Dict.mem_keys_iff.2 ⟨value, hmem⟩)
      obtain ⟨text, htext⟩ := h.scalar key value hmem
      exact ⟨resource, text, accept_eq_ok_iff.2 ⟨hname, htext⟩⟩
    · have hname := (accept_eq_ok_iff.1 haccept).1
      have hname' := (accept_eq_ok_iff.1 haccept').1
      exact h.apart _ (Dict.mem_keys_iff.2 ⟨_, hmem⟩) _ (Dict.mem_keys_iff.2 ⟨_, hmem'⟩)
        (hname.trans hname'.symm)
  · rintro ⟨hne, h⟩
    have haccept (key : String) (value : Value) (hmem : (key, value) ∈ options.entries) :
        ∃ resource text, Resource.normalize? key = some resource ∧ Renders value text := by
      obtain ⟨resource, text, haccept⟩ := h.known hmem
      exact ⟨resource, text, accept_eq_ok_iff.1 haccept⟩
    refine ⟨hne, fun key hkey => ?_, fun key value hmem => ?_,
      fun key hkey other hother hsame => ?_⟩
    · obtain ⟨value, hmem⟩ := Dict.mem_keys_iff.1 hkey
      obtain ⟨resource, text, hname, -⟩ := haccept key value hmem
      exact ⟨resource, hname⟩
    · obtain ⟨resource, text, -, htext⟩ := haccept key value hmem
      exact ⟨text, htext⟩
    · obtain ⟨value, hmem⟩ := Dict.mem_keys_iff.1 hkey
      obtain ⟨value', hmem'⟩ := Dict.mem_keys_iff.1 hother
      obtain ⟨resource, text, hname, htext⟩ := haccept key value hmem
      obtain ⟨resource', text', hname', htext'⟩ := haccept other value' hmem'
      obtain rfl : resource = resource' := Option.some.inj (hname.symm.trans (hsame.trans hname'))
      exact h.apart hmem hmem' (accept_eq_ok_iff.2 ⟨hname, htext⟩)
        (accept_eq_ok_iff.2 ⟨hname', htext'⟩)

theorem ofOptions_eq_ok_iff :
    ofOptions options = .ok c ↔
      options.entries ≠ [] ∧ gather options.entries ∅ = .ok c.constraints := by
  unfold ofOptions Dict.isEmpty
  rw [ne_eq, ← List.isEmpty_iff]
  cases options.entries.isEmpty with
  | true => simp
  | false =>
    cases gather options.entries ∅ with
    | error e => simp [bind, Except.bind]
    | ok gathered =>
      obtain ⟨constraints⟩ := c
      simp [bind, Except.bind, pure, Except.pure]

theorem ofOptions_eq_error_iff : ofOptions options = .error e ↔
    options.entries = [] ∧ e = .missingOption name "<restricción>" ∨
      options.entries ≠ [] ∧ gather options.entries ∅ = .error e := by
  unfold ofOptions Dict.isEmpty
  rw [ne_eq, ← List.isEmpty_iff]
  cases options.entries.isEmpty with
  | true => simp [eq_comm]
  | false => cases gather options.entries ∅ <;> simp [bind, Except.bind, pure, Except.pure]

/-- When nothing is at fault, every option is there under the name that its key writes. -/
theorem gather_eq_ok_iff : gather options.entries ∅ = .ok c.constraints ↔
    (∀ key e, ¬ Fault options key e) ∧ MadeOf c options := by
  rw [gather_eq_take]
  constructor
  · intro h
    have hkeeps := (Intake.take_eq_ok_iff options.sorted).1 h
    have hget (resource text : String) : c.constraints.get? resource = some text ↔
        ∃ key value, (key, value) ∈ options.entries ∧
          Resource.normalize? key = some resource ∧ Renders value text := by
      simp only [hkeeps.get?_iff, accept_eq_ok_iff]
    refine ⟨accepts_iff.1 (Intake.accepts_iff.2 hkeeps.sound), hget,
      by simpa using Intake.length_take h, ?_⟩
    · intro resource hresource
      obtain ⟨⟨resource, text⟩, hmem, rfl⟩ := List.mem_map.1 hresource
      obtain ⟨key, value, -, hname, -⟩ := (hget _ _).1 (Dict.get?_eq_some_iff.2 hmem)
      exact Resource.isRecognized_of_normalize? hname
  · rintro ⟨hsound, hmade⟩
    refine (Intake.take_eq_ok_iff options.sorted).2
      ⟨fun key e hfaulty => hsound key e (fault_of_faulty hfaulty), ?_⟩
    simpa only [accept_eq_ok_iff] using hmade.get?_iff

end

/-- **The options of a resource layer.** -/
theorem ofOptions_grammar :
    (∀ key resource, Resource.normalize? key = some resource ↔
      Resource.isRecognized resource = true ∧ Resource.Spells key.toList resource.toList) ∧
    ∀ options : Options,
      ((∃ c, ofOptions options = .ok c) ↔ Grammar options) ∧
      (∀ c, ofOptions options = .ok c ↔ Grammar options ∧ MadeOf c options) ∧
      ∀ e, ofOptions options = .error e ↔
        options.entries = [] ∧ e = .missingOption name "<restricción>" ∨
        ∃ key, Fault options key e ∧ ∀ other e', Fault options other e' →
          key = other ∨ Text.bytes key < Text.bytes other := by
  refine ⟨fun key resource => Resource.normalize?_eq_some_iff, fun options => ?_⟩
  have hok (c : ResourceConstraint) :
      ofOptions options = .ok c ↔ Grammar options ∧ MadeOf c options := by
    rw [ofOptions_eq_ok_iff, gather_eq_ok_iff, grammar_iff, and_assoc]
  refine ⟨⟨?_, ?_⟩, hok, ?_⟩
  · rintro ⟨c, hc⟩
    exact ((hok c).1 hc).1
  · intro h
    obtain ⟨hne, hsound⟩ := grammar_iff.1 h
    cases hgather : gather options.entries ∅ with
    | error e =>
      obtain ⟨key, hfault, -⟩ := gather_eq_error_iff.1 hgather
      exact absurd hfault (hsound key e)
    | ok constraints => exact ⟨⟨constraints⟩, ofOptions_eq_ok_iff.2 ⟨hne, hgather⟩⟩
  · intro e
    simp only [ofOptions_eq_error_iff, gather_eq_error_iff, Text.le_iff_bytes]
    constructor
    · rintro (hempty | ⟨-, hleast⟩)
      · exact .inl hempty
      · exact .inr hleast
    · rintro (hempty | ⟨key, hfault, hleast⟩)
      · exact .inl hempty
      · exact .inr ⟨hfault.ne_nil, key, hfault, hleast⟩

end ResourceConstraint
end TaskStack
