import TaskStack.Proofs.Engine.Local

/-!
# Local engines hold what they have taken

The ledger of a local engine and the history of the process tell of the same descriptors, as long as
the engine was there before the first of them came: what was taken is held under its signature, and
nothing else is.

* `Ledger.holds_register_iff`: what a ledger holds after one descriptor more.
* `Fleet.HoldsTaken.register`, `Fleet.HoldsTaken.submit`, `Fleet.HoldsTaken.body`: an engine goes on
  holding what it has taken, whichever engine is asked.
-/

namespace TaskStack

theorem mapError_eq_ok_iff {α β γ : Type} {f : α → β} {r : Except α γ} {c : γ} :
    r.mapError f = .ok c ↔ r = .ok c := by
  cases r with
  | ok a =>
    constructor
    · exact fun h => congrArg Except.ok (Except.ok.inj h)
    · exact fun h => congrArg Except.ok (Except.ok.inj h)
  | error e =>
    constructor
    · intro h
      cases h
    · intro h
      cases h

/-- What is held after a descriptor was handed over is what was held, and the descriptor if it was
taken. -/
theorem Ledger.holds_register_iff {l : Ledger} {d x : TaskDescriptor} :
    (l.register d).2.descriptor? x.canonicalSignature = some x ↔
      l.descriptor? x.canonicalSignature = some x ∨ x = d ∧ (l.register d).1 = .ok () := by
  constructor
  · intro h
    obtain ⟨hsame, -⟩ | ⟨hnone, htaken⟩ := l.register_cases d
    · rw [hsame] at h
      exact .inl h
    · rw [htaken, descriptor?_append] at h
      obtain hold | ⟨-, hnew⟩ := Option.or_eq_some_iff.1 h
      · exact .inl hold
      · split at hnew
        · exact .inr ⟨(Option.some.inj hnew).symm, by rw [htaken]⟩
        · cases hnew
  · rintro (h | ⟨rfl, hok⟩)
    · exact descriptor?_register_of_some h
    · exact descriptor?_register_of_ok hok

namespace Fleet

variable {f : Fleet} {i : EngineId}

/-- All engines that were handed a descriptor are there. -/
def Known (f : Fleet) : Prop :=
  ∀ engine o d answer, .register engine o d answer ∈ f.history → engine < f.engines.length

theorem Known.register (h : f.Known) (engine : EngineId) (o : Origin) (d : TaskDescriptor) :
    (f.register engine o d).2.Known := by
  unfold Fleet.register
  split
  · exact h
  · next e he =>
    have hlt := (List.getElem?_eq_some_iff.1 he).1
    intro engine' o' d' answer' hmem
    simp only [log, setEngine, List.length_set]
    obtain heq | hmem := List.mem_cons.1 hmem
    · cases heq
      exact hlt
    · exact h engine' o' d' answer' hmem

theorem Known.submit (h : f.Known) (engine : EngineId) (o : Origin) (d : TaskDescriptor)
    (schema : Schema) (args : Args) : (f.submit engine o d schema args).2.Known := by
  unfold Fleet.submit
  split
  · exact h
  · intro engine' o' d' answer' hmem
    simp only [log, setEngine, List.length_set]
    obtain heq | hmem := List.mem_cons.1 hmem
    · cases heq
    · exact h engine' o' d' answer' hmem

/-- The engine has taken the descriptor. -/
def Taken (f : Fleet) (i : EngineId) (d : TaskDescriptor) : Prop :=
  ∃ o, .register i o d (.ok ()) ∈ f.history

/-- The engine is local and holds exactly what it has taken. -/
def HoldsTaken (f : Fleet) (i : EngineId) : Prop :=
  ∃ e, f.engines[i]? = some e ∧ e.IsLocal ∧
    ∀ d, e.ledger.descriptor? d.canonicalSignature = some d ↔ f.Taken i d

theorem engines_register_of_ne {engine : EngineId} (h : engine ≠ i) (o : Origin)
    (d : TaskDescriptor) : (f.register engine o d).2.engines[i]? = f.engines[i]? := by
  unfold register
  split
  · rfl
  · exact List.getElem?_set_ne h

theorem engines_submit_of_ne {engine : EngineId} (h : engine ≠ i) (o : Origin)
    (d : TaskDescriptor) (schema : Schema) (args : Args) :
    (f.submit engine o d schema args).2.engines[i]? = f.engines[i]? := by
  unfold submit
  split
  · rfl
  · exact List.getElem?_set_ne h

/-- One event more. The engines do not matter. -/
theorem taken_cons {x : Event} {history : List Event} {engines engines' : List Engine}
    {d : TaskDescriptor} : Taken ⟨engines, x :: history⟩ i d ↔
      (∃ o, x = .register i o d (.ok ())) ∨ Taken ⟨engines', history⟩ i d := by
  simp only [Taken, List.mem_cons, exists_or, eq_comm]

theorem HoldsTaken.register (h : f.HoldsTaken i) (engine : EngineId) (o : Origin)
    (d : TaskDescriptor) : (f.register engine o d).2.HoldsTaken i := by
  obtain ⟨e, he, hlocal, hholds⟩ := h
  by_cases hi : engine = i
  · subst hi
    rw [register_of_isLocal he hlocal]
    refine ⟨_, engines_setEngine he _, hlocal.withLedger _, ?_⟩
    intro x
    -- the ledger answers what the history notes
    rw [Ledger.holds_register_iff, hholds, or_comm]
    refine Iff.trans (or_congr_left ?_) taken_cons.symm
    constructor
    · rintro ⟨rfl, hok⟩
      exact ⟨o, by rw [hok]; rfl⟩
    · rintro ⟨o', heq⟩
      obtain ⟨-, -, hd, hanswer⟩ := Event.register.inj heq
      exact ⟨hd.symm, mapError_eq_ok_iff.1 hanswer⟩
  · refine ⟨e, (engines_register_of_ne hi o d).trans he, hlocal, ?_⟩
    intro x
    rw [hholds]
    obtain ⟨-, hf⟩ | ⟨answer, engines, hf⟩ := f.register_cases engine o d
    · rw [hf]
    · rw [hf]
      exact (taken_cons.trans (or_iff_right (by simp [hi]))).symm

theorem HoldsTaken.submit (h : f.HoldsTaken i) (engine : EngineId) (o : Origin)
    (d : TaskDescriptor) (schema : Schema) (args : Args) :
    (f.submit engine o d schema args).2.HoldsTaken i := by
  obtain ⟨e, he, hlocal, hholds⟩ := h
  have hsame (engines : List Engine) (x : TaskDescriptor) :
      f.Taken i x ↔ Taken ⟨engines, .submit engine o d schema args :: f.history⟩ i x :=
    (taken_cons.trans (or_iff_right (by simp))).symm
  by_cases hi : engine = i
  · subst hi
    rw [submit_of_isLocal he hlocal]
    exact ⟨_, engines_setEngine he _, hlocal.withLedger _, fun x => (hholds x).trans (hsame _ x)⟩
  · refine ⟨e, (engines_submit_of_ne hi o d schema args).trans he, hlocal, ?_⟩
    intro x
    rw [hholds]
    obtain ⟨-, hf⟩ | ⟨admission, engines, hf⟩ := f.submit_cases engine o d schema args
    · rw [hf]
    · rw [hf]
      exact hsame engines x

theorem HoldsTaken.body (h : f.HoldsTaken i) (id : TaskId) (role : Role) :
    (f.log (.body id role)).HoldsTaken i := by
  obtain ⟨e, he, hlocal, hholds⟩ := h
  exact ⟨e, he, hlocal, fun x =>
    (hholds x).trans (taken_cons.trans (or_iff_right (by simp))).symm⟩

end Fleet
end TaskStack
