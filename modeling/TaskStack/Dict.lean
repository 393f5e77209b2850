/-!
# Maps from names to values

A `Dict α` is a list of entries in strictly increasing order of their names, so two maps with the
same lookups are the same map, and every walk over a map meets its names in that order. The order
of `String` is the order of code points, which is also the order of the bytes of the text in UTF-8.

- `get?_insert`, `get?_erase`: what a write does to every lookup
- `ext_get?`: a map is its lookups
-/

namespace TaskStack

universe u v

/-- A finite map from names to values, its entries in increasing order of their names. -/
structure Dict (α : Type u) where
  entries : List (String × α)
  sorted : entries.Pairwise (fun a b => a.1 < b.1)
deriving Repr

namespace Dict

variable {α : Type u} {β : Type v}

instance [DecidableEq α] : DecidableEq (Dict α) := fun a b =>
  decidable_of_iff (a.entries = b.entries) (by cases a; cases b; simp)

/-! ## Lists of entries -/

/-- Puts an entry in its place, over the entry of the same name if there is one. -/
def insertEntry (k : String) (v : α) : List (String × α) → List (String × α)
  | [] => [(k, v)]
  | e :: rest =>
    if k < e.1 then (k, v) :: e :: rest
    else if k = e.1 then (k, v) :: rest
    else e :: insertEntry k v rest

def findEntry (k : String) : List (String × α) → Option α
  | [] => none
  | e :: rest => if e.1 = k then some e.2 else findEntry k rest

theorem lt_of_not_lt_of_ne {a b : String} (h : ¬ a < b) (hne : a ≠ b) : b < a := by
  rcases Decidable.em (b < a) with h' | h'
  · exact h'
  · exact absurd (String.le_antisymm (String.not_lt.1 h') (String.not_lt.1 h)) hne

theorem mem_insertEntry {k : String} {v : α} {e : String × α} {l : List (String × α)}
    (h : e ∈ insertEntry k v l) : e = (k, v) ∨ e ∈ l := by
  induction l with
  | nil => simpa [insertEntry] using h
  | cons d rest ih =>
    unfold insertEntry at h
    split at h
    · simpa using h
    · split at h
      · rcases List.mem_cons.1 h with h | h
        · exact .inl h
        · exact .inr (List.mem_cons_of_mem _ h)
      · rcases List.mem_cons.1 h with h | h
        · exact .inr (h ▸ List.mem_cons_self)
        · exact (ih h).imp_right (List.mem_cons_of_mem _)

theorem pairwise_insertEntry (k : String) (v : α) {l : List (String × α)}
    (h : l.Pairwise (fun a b => a.1 < b.1)) :
    (insertEntry k v l).Pairwise (fun a b => a.1 < b.1) := by
  induction l with
  | nil => simp [insertEntry]
  | cons d rest ih =>
    obtain ⟨hd, hr⟩ := List.pairwise_cons.1 h
    unfold insertEntry
    split
    · next hlt =>
      refine List.pairwise_cons.2 ⟨fun e he => ?_, h⟩
      rcases List.mem_cons.1 he with rfl | he
      · exact hlt
      · exact String.lt_trans hlt (hd e he)
    · next hlt =>
      split
      · next heq => exact List.pairwise_cons.2 ⟨fun e he => heq ▸ hd e he, hr⟩
      · next hne =>
        refine List.pairwise_cons.2 ⟨fun e he => ?_, ih hr⟩
        rcases mem_insertEntry he with rfl | he
        · exact lt_of_not_lt_of_ne hlt hne
        · exact hd e he

theorem findEntry_insertEntry (k k' : String) (v : α) (l : List (String × α)) :
    findEntry k' (insertEntry k v l) = if k = k' then some v else findEntry k' l := by
  induction l with
  | nil => simp [insertEntry, findEntry]
  | cons d rest ih =>
    unfold insertEntry
    split
    · simp [findEntry]
    · split
      · next heq =>
        by_cases hk : k = k'
        · simp [findEntry, hk]
        · simp [findEntry, hk, ← heq]
      · next hne =>
        by_cases hk : k = k'
        · subst hk
          simp [findEntry, ih, Ne.symm hne]
        · simp [findEntry, ih, hk]

/-! ## Maps -/

protected def empty : Dict α := ⟨[], .nil⟩

instance : EmptyCollection (Dict α) := ⟨Dict.empty⟩
instance : Inhabited (Dict α) := ⟨Dict.empty⟩

/-- Writes a value under a name, in place of the one that stood there. -/
def insert (d : Dict α) (k : String) (v : α) : Dict α :=
  ⟨insertEntry k v d.entries, pairwise_insertEntry k v d.sorted⟩

def get? (d : Dict α) (k : String) : Option α := findEntry k d.entries

def contains (d : Dict α) (k : String) : Bool := (d.get? k).isSome

def isEmpty (d : Dict α) : Bool := d.entries.isEmpty

def keys (d : Dict α) : List String := d.entries.map (·.1)

def values (d : Dict α) : List α := d.entries.map (·.2)

/-- Keeps the entries whose names pass. -/
def filterKeys (p : String → Bool) (d : Dict α) : Dict α :=
  ⟨d.entries.filter (fun e => p e.1), d.sorted.sublist List.filter_sublist⟩

def erase (d : Dict α) (k : String) : Dict α := d.filterKeys (fun k' => k' != k)

/-- Applies a function to every value. -/
def mapValues (f : α → β) (d : Dict α) : Dict β :=
  ⟨d.entries.map (fun e => (e.1, f e.2)), by
    simpa [List.pairwise_map] using d.sorted⟩

/-- Writes entries one after another, so the last one of a name stays. -/
def ofList (l : List (String × α)) : Dict α := l.foldl (fun d e => d.insert e.1 e.2) ∅

@[simp] theorem entries_empty : (∅ : Dict α).entries = [] := rfl

@[simp] theorem get?_empty (k : String) : (∅ : Dict α).get? k = none := rfl

@[grind =] theorem get?_insert (d : Dict α) (k k' : String) (v : α) :
    (d.insert k v).get? k' = if k = k' then some v else d.get? k' :=
  findEntry_insertEntry k k' v d.entries

@[simp] theorem get?_insert_self (d : Dict α) (k : String) (v : α) :
    (d.insert k v).get? k = some v := by simp [get?_insert]

theorem get?_insert_of_ne (d : Dict α) {k k' : String} (v : α) (h : k ≠ k') :
    (d.insert k v).get? k' = d.get? k' := by simp [get?_insert, h]

@[grind =] theorem get?_filterKeys (p : String → Bool) (d : Dict α) (k : String) :
    (d.filterKeys p).get? k = if p k then d.get? k else none := by
  obtain ⟨l, hl⟩ := d
  simp only [get?, filterKeys]
  clear hl
  induction l with
  | nil => simp [findEntry]
  | cons e rest ih =>
    by_cases hp : p e.1
    · by_cases hk : e.1 = k
      · subst hk; simp [findEntry, hp]
      · simp [findEntry, hp, hk, ih]
    · by_cases hk : e.1 = k
      · subst hk
        have hp' : p e.1 = false := by simpa using hp
        simp [hp', ih]
      · simp [findEntry, hp, hk, ih]

@[grind =] theorem get?_erase (d : Dict α) (k k' : String) :
    (d.erase k).get? k' = if k' = k then none else d.get? k' := by
  by_cases h : k' = k <;> simp [erase, get?_filterKeys, h]

@[grind =] theorem get?_mapValues (f : α → β) (d : Dict α) (k : String) :
    (d.mapValues f).get? k = (d.get? k).map f := by
  obtain ⟨l, hl⟩ := d
  simp only [get?, mapValues]
  clear hl
  induction l with
  | nil => rfl
  | cons e rest ih => by_cases hk : e.1 = k <;> simp [findEntry, hk, ih]

theorem values_mapValues (f : α → β) (d : Dict α) :
    (d.mapValues f).values = d.values.map f := by
  simp [values, mapValues]

theorem mem_of_findEntry {k : String} {v : α} {l : List (String × α)}
    (h : findEntry k l = some v) : (k, v) ∈ l := by
  induction l with
  | nil => simp [findEntry] at h
  | cons e rest ih =>
    unfold findEntry at h
    split at h
    · next hk =>
      obtain ⟨a, b⟩ := e
      simp_all
    · exact List.mem_cons_of_mem _ (ih h)

theorem findEntry_of_mem {k : String} {v : α} {l : List (String × α)}
    (hs : l.Pairwise (fun a b => a.1 < b.1)) (h : (k, v) ∈ l) : findEntry k l = some v := by
  induction l with
  | nil => simp at h
  | cons e rest ih =>
    obtain ⟨he, hr⟩ := List.pairwise_cons.1 hs
    rcases List.mem_cons.1 h with rfl | h
    · simp [findEntry]
    · have hne : e.1 ≠ k := fun heq => String.lt_irrefl k (by simpa [heq] using he (k, v) h)
      simp [findEntry, hne, ih hr h]

/-- An entry is in the map exactly when its name leads to its value. -/
theorem get?_eq_some_iff {d : Dict α} {k : String} {v : α} :
    d.get? k = some v ↔ (k, v) ∈ d.entries :=
  ⟨mem_of_findEntry, findEntry_of_mem d.sorted⟩

theorem entries_eq_of_findEntry {l₁ l₂ : List (String × α)}
    (h₁ : l₁.Pairwise (fun a b => a.1 < b.1)) (h₂ : l₂.Pairwise (fun a b => a.1 < b.1))
    (h : ∀ k, findEntry k l₁ = findEntry k l₂) : l₁ = l₂ := by
  induction l₁ generalizing l₂ with
  | nil =>
    cases l₂ with
    | nil => rfl
    | cons e rest => simpa [findEntry] using h e.1
  | cons d rest ih =>
    cases l₂ with
    | nil => simpa [findEntry] using h d.1
    | cons e rest' =>
      obtain ⟨hd, hr⟩ := List.pairwise_cons.1 h₁
      obtain ⟨he, hr'⟩ := List.pairwise_cons.1 h₂
      have hde : (d.1, d.2) ∈ e :: rest' := mem_of_findEntry (by rw [← h]; simp [findEntry])
      have hed : (e.1, e.2) ∈ d :: rest := mem_of_findEntry (by rw [h]; simp [findEntry])
      have heq : d = e := by
        rcases List.mem_cons.1 hde with hde | hde
        · exact hde
        · rcases List.mem_cons.1 hed with hed | hed
          · exact hed.symm
          · exact absurd (he _ hde) (String.lt_asymm (hd _ hed))
      subst heq
      have hrest : ∀ k, findEntry k rest = findEntry k rest' := fun k => by
        have := h k
        by_cases hk : d.1 = k
        · have none_of {l : List (String × α)} (hl : ∀ a ∈ l, d.1 < a.1) :
              findEntry k l = none := by
            match hf : findEntry k l with
            | none => rfl
            | some v =>
              have := hl (k, v) (mem_of_findEntry hf)
              exact absurd (hk ▸ this) (String.lt_irrefl _)
          rw [none_of hd, none_of he]
        · simpa [findEntry, hk] using this
      rw [ih hr hr' hrest]

/-- Two maps with the same lookups are the same map. -/
theorem ext_get? {d₁ d₂ : Dict α} (h : ∀ k, d₁.get? k = d₂.get? k) : d₁ = d₂ := by
  have := entries_eq_of_findEntry d₁.sorted d₂.sorted h
  cases d₁; cases d₂; simp_all

theorem get?_foldl_insert {l : List (String × α)} (hl : l.Pairwise (fun a b => a.1 < b.1))
    (d : Dict α) (k : String) :
    (l.foldl (fun d e => d.insert e.1 e.2) d).get? k = (findEntry k l).or (d.get? k) := by
  induction l generalizing d with
  | nil => rfl
  | cons e rest ih =>
    obtain ⟨he, hrest⟩ := List.pairwise_cons.1 hl
    rw [List.foldl_cons, ih hrest, get?_insert]
    by_cases hk : e.1 = k
    · cases hf : findEntry k rest with
      | none => simp [findEntry, hk]
      | some v => exact absurd (he _ (mem_of_findEntry hf)) (hk ▸ String.lt_irrefl _)
    · simp [findEntry, hk]

/-- A map is what its entries write. -/
theorem ofList_entries (d : Dict α) : ofList d.entries = d :=
  ext_get? fun k => by rw [ofList, get?_foldl_insert d.sorted, get?_empty, Option.or_none, get?]

end Dict
end TaskStack
