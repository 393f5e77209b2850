import TaskStack.Engine.Fleet

/-!
# Local engines

A local engine keeps descriptors in its ledger and runs every submission. It takes a valid
descriptor unless it holds another one under the same signature. So descriptors that it takes one
by one it takes in any order and any number of times, if no two of them share a signature.

* `Fleet.Serves`: one engine is local and takes the descriptors of a list.
* `Fleet.register_of_serves`, `Fleet.submit_of_serves`: what it answers, and that it goes on so.
-/

namespace TaskStack

theorem TaskDescriptor.validate_ne_poisoned (d : TaskDescriptor) (lock : String) :
    d.validate ≠ .error (.poisoned lock) := by
  unfold validate
  split <;> exact nofun

namespace Ledger

variable {l : Ledger} {d d' : TaskDescriptor}

/-- The ledger takes a descriptor that is handed to it. -/
def Takes (l : Ledger) (d : TaskDescriptor) : Prop := (l.register d).1 = .ok ()

theorem takes_iff : l.Takes d ↔ d.validate = .ok () ∧
    ∀ held, l.descriptor? d.canonicalSignature = some held → held = d := by
  unfold Takes register
  cases d.validate with
  | error e => simp
  | ok u =>
    cases l.descriptor? d.canonicalSignature with
    | none => simp
    | some held => by_cases h : held = d <;> simp [h]

theorem descriptor?_append (l : Ledger) (d : TaskDescriptor) (signature : String) :
    ({ l with registrations := l.registrations ++ [d] } : Ledger).descriptor? signature =
      (l.descriptor? signature).or (if d.canonicalSignature = signature then some d else none) := by
  rw [descriptor?, List.find?_append, List.find?_singleton, ← descriptor?]
  simp

/-- What a ledger does with a descriptor: it stays as it was, or takes the first one of a signature.
-/
theorem register_cases (l : Ledger) (d : TaskDescriptor) :
    (l.register d).2 = l ∧
        ((l.register d).1 = .ok () → l.descriptor? d.canonicalSignature = some d) ∨
      l.descriptor? d.canonicalSignature = none ∧
        l.register d = (.ok (), { l with registrations := l.registrations ++ [d] }) := by
  unfold register
  cases d.validate with
  | error e => exact .inl ⟨rfl, fun h => by cases h⟩
  | ok u =>
    cases l.descriptor? d.canonicalSignature with
    | none => exact .inr ⟨rfl, rfl⟩
    | some held =>
      by_cases hsame : held = d
      · exact .inl (by simp [hsame])
      · exact .inl (by simp [hsame])

/-- What is held after a descriptor was handed over. -/
theorem descriptor?_register (signature : String) :
    (l.register d).2.descriptor? signature = l.descriptor? signature ∨
      d.canonicalSignature = signature ∧
        (l.register d).2.descriptor? signature = (l.descriptor? signature).or (some d) := by
  obtain ⟨hsame, -⟩ | ⟨-, htaken⟩ := l.register_cases d
  · exact .inl (by rw [hsame])
  · rw [htaken, descriptor?_append]
    by_cases hsignature : d.canonicalSignature = signature
    · exact .inr ⟨hsignature, by rw [if_pos hsignature]⟩
    · exact .inl (by rw [if_neg hsignature, Option.or_none])

/-- What is held stays. -/
theorem descriptor?_register_of_some {signature : String} (h : l.descriptor? signature = some d') :
    (l.register d).2.descriptor? signature = some d' := by
  obtain hsame | ⟨-, hor⟩ := l.descriptor?_register (d := d) signature
  · exact hsame.trans h
  · rw [hor, h]
    rfl

/-- What was taken is held. -/
theorem descriptor?_register_of_ok (h : (l.register d).1 = .ok ()) :
    (l.register d).2.descriptor? d.canonicalSignature = some d := by
  obtain ⟨hsame, hheld⟩ | ⟨hnone, htaken⟩ := l.register_cases d
  · rw [hsame]
    exact hheld h
  · rw [htaken, descriptor?_append, hnone, if_pos rfl]
    rfl

theorem registrationCount_eq_zero {signature : String} (h : l.descriptor? signature = none) :
    l.registrationCount signature = 0 :=
  List.countP_eq_zero.2 (List.find?_eq_none.1 h)

/-- No signature comes to have two descriptors. -/
theorem registrationCount_register {signature : String} (h : l.registrationCount signature ≤ 1) :
    (l.register d).2.registrationCount signature ≤ 1 := by
  obtain ⟨hsame, -⟩ | ⟨hnone, htaken⟩ := l.register_cases d
  · rw [hsame]
    exact h
  · rw [htaken, registrationCount, List.countP_append, List.countP_singleton, ← registrationCount]
    by_cases hsignature : d.canonicalSignature = signature
    · rw [← hsignature, registrationCount_eq_zero hnone]
      simp
    · simpa [hsignature] using h

theorem submissionCount_register (signature : String) :
    (l.register d).2.submissionCount signature = l.submissionCount signature := by
  obtain ⟨hsame, -⟩ | ⟨-, htaken⟩ := l.register_cases d
  · rw [hsame]
  · rw [htaken]
    rfl

/-- A submission counts for its signature only. -/
theorem submissionCount_note (l : Ledger) (submitted signature : String) (args : Args) :
    (l.note submitted args).submissionCount signature =
      l.submissionCount signature + if submitted = signature then 1 else 0 := by
  simp only [note, submissionCount, Dict.get?_insert]
  split
  · next h =>
    subst h
    rfl
  · rfl

/-- A descriptor that would be taken is still taken after another one was handed over. -/
theorem Takes.register (h : l.Takes d)
    (hne : d'.canonicalSignature = d.canonicalSignature → d' = d) : (l.register d').2.Takes d := by
  obtain ⟨hvalid, hheld⟩ := takes_iff.1 h
  refine takes_iff.2 ⟨hvalid, ?_⟩
  intro held heq
  obtain hsame | ⟨hsignature, hor⟩ := l.descriptor?_register (d := d') d.canonicalSignature
  · exact hheld held (hsame.symm.trans heq)
  · rw [hor] at heq
    cases hl : l.descriptor? d.canonicalSignature with
    | some x =>
      rw [hl] at heq
      cases heq
      exact hheld held hl
    | none =>
      rw [hl] at heq
      cases heq
      exact hne hsignature

theorem Takes.note (h : l.Takes d) (signature : String) (args : Args) :
    (l.note signature args).Takes d := by
  obtain ⟨hvalid, hheld⟩ := takes_iff.1 h
  exact takes_iff.2 ⟨hvalid, hheld⟩

/-- A ledger never answers for a lock. -/
theorem register_ne_poisoned (l : Ledger) (d : TaskDescriptor) (lock : String) :
    (l.register d).1 ≠ .error (.poisoned lock) := by
  have hvalidate := d.validate_ne_poisoned lock
  unfold register
  generalize d.validate = checked at hvalidate ⊢
  cases checked with
  | error e => exact hvalidate
  | ok u =>
    dsimp only
    split
    · split <;> exact nofun
    · exact nofun

end Ledger

namespace Engine

/-- The engine acts by itself and is connected to no registry. -/
structure IsLocal (e : Engine) : Prop where
  registerScript : e.registerScript = []
  submitScript : e.submitScript = []
  connection : e.connection = none

variable {e : Engine}

theorem register_of_isLocal (h : e.IsLocal) (d : TaskDescriptor) :
    e.register d = ((e.ledger.register d).1.mapError fun x => .error (.handoff x),
      { e with ledger := (e.ledger.register d).2 }) := by
  simp only [register, h.registerScript, registerByReply, keep, h.connection]

theorem submit_of_isLocal (h : e.IsLocal) (signature : String) (args : Args) :
    e.submit signature args = (.run, { e with ledger := e.ledger.note signature args }) := by
  simp only [submit, h.submitScript, submitByReply]

theorem IsLocal.withLedger (h : e.IsLocal) (l : Ledger) : IsLocal { e with ledger := l } :=
  ⟨h.registerScript, h.submitScript, h.connection⟩

end Engine

/-- The body that an event tells of, and the role in which it ran. -/
def Event.ran? : Event → Option (TaskId × Role)
  | .body id role => some (id, role)
  | _ => none

namespace Fleet

variable {f : Fleet} {engine : EngineId} {ds : List TaskDescriptor}

theorem register_of_isLocal {e : Engine} (he : f.engines[engine]? = some e) (h : e.IsLocal)
    (o : Origin) (d : TaskDescriptor) :
    f.register engine o d =
      let answer : Except Fault Unit :=
        (e.ledger.register d).1.mapError fun x => .error (.handoff x)
      (answer, (f.setEngine engine { e with ledger := (e.ledger.register d).2 }).log
        (.register engine o d answer)) := by
  simp only [register, he, Engine.register_of_isLocal h]

theorem submit_of_isLocal {e : Engine} (he : f.engines[engine]? = some e) (h : e.IsLocal)
    (o : Origin) (d : TaskDescriptor) (schema : Schema) (args : Args) :
    f.submit engine o d schema args =
      (.run, (f.setEngine engine { e with ledger := e.ledger.note d.canonicalSignature args }).log
        (.submit engine o d schema args)) := by
  simp only [submit, he, Engine.submit_of_isLocal h]

theorem engines_setEngine {e : Engine} (h : f.engines[engine]? = some e) (e' : Engine) :
    (f.setEngine engine e').engines[engine]? = some e' := by
  obtain ⟨hlt, -⟩ := List.getElem?_eq_some_iff.1 h
  simp [setEngine, hlt]

/-- The bodies that ran, the latest first. -/
def bodies (f : Fleet) : List (TaskId × Role) := f.history.filterMap Event.ran?

@[simp] theorem bodies_log_body (f : Fleet) (id : TaskId) (role : Role) :
    (f.log (.body id role)).bodies = (id, role) :: f.bodies := rfl

@[simp] theorem bodies_register (f : Fleet) (engine : EngineId) (o : Origin) (d : TaskDescriptor) :
    (f.register engine o d).2.bodies = f.bodies := by
  obtain ⟨-, h⟩ | ⟨answer, engines, h⟩ := f.register_cases engine o d
  · simp only [h]
  · simp only [h]
    rfl

@[simp] theorem bodies_submit (f : Fleet) (engine : EngineId) (o : Origin) (d : TaskDescriptor)
    (schema : Schema) (args : Args) : (f.submit engine o d schema args).2.bodies = f.bodies := by
  obtain ⟨-, h⟩ | ⟨admission, engines, h⟩ := f.submit_cases engine o d schema args
  · simp only [h]
  · simp only [h]
    rfl

/-- The engine is local and takes the descriptors. -/
def Serves (f : Fleet) (engine : EngineId) (ds : List TaskDescriptor) : Prop :=
  ∃ e, f.engines[engine]? = some e ∧ e.IsLocal ∧ ∀ d ∈ ds, e.ledger.Takes d

theorem serves_setEngine {e : Engine} (h : f.engines[engine]? = some e) {e' : Engine}
    (hlocal : e'.IsLocal) (htakes : ∀ d ∈ ds, e'.ledger.Takes d) (event : Event) :
    ((f.setEngine engine e').log event).Serves engine ds :=
  ⟨e', engines_setEngine h e', hlocal, htakes⟩

theorem register_of_serves (h : f.Serves engine ds)
    (hds : ∀ d ∈ ds, ∀ d' ∈ ds, d.canonicalSignature = d'.canonicalSignature → d = d')
    {d : TaskDescriptor} (hd : d ∈ ds) (o : Origin) :
    (f.register engine o d).1 = .ok () ∧ (f.register engine o d).2.Serves engine ds := by
  obtain ⟨e, he, hlocal, htakes⟩ := h
  have hanswer : (e.ledger.register d).1 = .ok () := htakes d hd
  simp only [register_of_isLocal he hlocal, hanswer]
  have hstill : ∀ d' ∈ ds, (e.ledger.register d).2.Takes d' := by
    intro d' hd'
    exact (htakes d' hd').register (hds d hd d' hd')
  exact ⟨rfl, serves_setEngine he (hlocal.withLedger _) hstill _⟩

theorem submit_of_serves (h : f.Serves engine ds) (o : Origin) (d : TaskDescriptor)
    (schema : Schema) (args : Args) :
    (f.submit engine o d schema args).1 = .run ∧
      (f.submit engine o d schema args).2.Serves engine ds := by
  obtain ⟨e, he, hlocal, htakes⟩ := h
  simp only [submit_of_isLocal he hlocal, true_and]
  have hstill : ∀ d' ∈ ds, (e.ledger.note d.canonicalSignature args).Takes d' := by
    intro d' hd'
    exact (htakes d' hd').note _ _
  exact serves_setEngine he (hlocal.withLedger _) hstill _

end Fleet
end TaskStack
