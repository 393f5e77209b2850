import TaskStack.Proofs.Engine.Local

/-!
# A ledger is made of cells

Under each signature a ledger keeps what it was told under that signature: the descriptors it took,
how often the signature was submitted, and the markers of the latest submission. What it does with a
descriptor or a submission is decided by the cell of its signature and changes that cell only. So a
ledger is its cells, up to the order in which descriptors of different signatures came.

* `Ledger.register_local`, `Ledger.note_local`: the cells decide what happens to them.
* `Ledger.cell_register_of_ne`, `Ledger.cell_note_of_ne`: the other cells stay.
* `Ledger.perm_of_cell_eq`: equal cells hold the same descriptors.
-/

namespace TaskStack

namespace Ledger

/-- What a ledger keeps under one signature. -/
structure Cell where
  registrations : List TaskDescriptor
  submissions : Option Nat
  lastMarkers : Option Options

def cell (l : Ledger) (signature : String) : Cell where
  registrations := l.registrations.filter (·.canonicalSignature = signature)
  submissions := l.submissions.get? signature
  lastMarkers := l.lastMarkers.get? signature

variable {l l' : Ledger} {d : TaskDescriptor} {signature other : String}

theorem descriptor?_eq_head? (l : Ledger) (signature : String) :
    l.descriptor? signature = (l.cell signature).registrations.head? := by
  rw [cell, List.head?_filter, descriptor?]

theorem submissionCount_eq (l : Ledger) (signature : String) :
    l.submissionCount signature = ((l.cell signature).submissions).getD 0 := rfl

/-! ## The other cells stay -/

theorem cell_append (l : Ledger) (d : TaskDescriptor) (signature : String) :
    ({ l with registrations := l.registrations ++ [d] } : Ledger).cell signature =
      { l.cell signature with registrations := (l.cell signature).registrations ++
          if d.canonicalSignature = signature then [d] else [] } := by
  simp only [cell, List.filter_append, List.filter_cons, List.filter_nil, decide_eq_true_eq]

theorem cell_register_of_ne (h : d.canonicalSignature ≠ signature) :
    (l.register d).2.cell signature = l.cell signature := by
  obtain ⟨hsame, -⟩ | ⟨-, htaken⟩ := l.register_cases d
  · rw [hsame]
  · rw [htaken, cell_append, if_neg h, List.append_nil]

theorem cell_note_of_ne (args : Args) (h : other ≠ signature) :
    (l.note other args).cell signature = l.cell signature := by
  simp only [cell, note, Dict.get?_insert_of_ne _ _ h]

/-! ## The cells decide -/

theorem register_local (h : l.cell d.canonicalSignature = l'.cell d.canonicalSignature) :
    (l.register d).1 = (l'.register d).1 ∧
      (l.register d).2.cell d.canonicalSignature = (l'.register d).2.cell d.canonicalSignature := by
  have hheld : l.descriptor? d.canonicalSignature = l'.descriptor? d.canonicalSignature := by
    rw [descriptor?_eq_head?, descriptor?_eq_head?, h]
  unfold register
  rw [← hheld]
  cases d.validate with
  | error e => exact ⟨rfl, h⟩
  | ok u =>
    cases l.descriptor? d.canonicalSignature with
    | some held => by_cases hsame : held = d <;> simp [hsame, h]
    | none => exact ⟨rfl, by simp only [cell_append, h]⟩

theorem note_local (args : Args) (h : l.cell signature = l'.cell signature) :
    (l.note signature args).cell signature = (l'.note signature args).cell signature := by
  have hregistrations := congrArg Cell.registrations h
  have hcount : l.submissionCount signature = l'.submissionCount signature := by
    rw [submissionCount_eq, submissionCount_eq, h]
  simp only [cell] at hregistrations
  simp only [cell, note, Dict.get?_insert_self, hcount, hregistrations]

/-- Cells that are the same stay the same, whatever is handed over. -/
theorem cell_register_congr
    (hd : l.cell d.canonicalSignature = l'.cell d.canonicalSignature)
    (h : l.cell signature = l'.cell signature) :
    (l.register d).2.cell signature = (l'.register d).2.cell signature := by
  by_cases hne : d.canonicalSignature = signature
  · exact hne ▸ (register_local hd).2
  · rw [cell_register_of_ne hne, cell_register_of_ne hne, h]

theorem cell_note_congr (args : Args) (h : l.cell signature = l'.cell signature) :
    (l.note other args).cell signature = (l'.note other args).cell signature := by
  by_cases hne : other = signature
  · subst hne
    exact note_local args h
  · rw [cell_note_of_ne args hne, cell_note_of_ne args hne, h]

/-! ## Equal cells -/

/-- **Ledgers with the same cells hold the same descriptors,** perhaps in another order. -/
theorem perm_of_cell_eq (h : ∀ signature, l.cell signature = l'.cell signature) :
    l.registrations.Perm l'.registrations := by
  rw [List.perm_iff_count]
  intro d
  have hcount (l : Ledger) : l.registrations.count d =
      (l.cell d.canonicalSignature).registrations.count d :=
    (List.count_filter (by simp)).symm
  rw [hcount, hcount, h]

end Ledger
end TaskStack
