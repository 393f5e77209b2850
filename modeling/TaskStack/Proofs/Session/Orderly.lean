import TaskStack.Proofs.Session.Contract
import TaskStack.Proofs.Session.Locks
import TaskStack.Proofs.Session.Meaning

/-!
# Tasks that get on with each other

Some tasks can be declared together and be called in any order without an engine ever refusing one
of them: what they hand over keeps the contract, and no two of them hand over different descriptors
under one signature. As long as no other tasks are declared and all engines are local, nothing that
happens in a session, no failure and no panic of a body, keeps a later call from its meaning.

**Invariant.** The engines hold descriptors of these tasks only, and no lock is poisoned
(`Orderly`). A move keeps it, because a local engine does not panic.

**Theorem (`Orderly.callWithin`).** A call in an orderly session has the meaning of its declaration.

* `Declaration.Compatible`: the tasks get on with each other.
* `Orderly.accepts`: nothing keeps a call of an orderly session from its engine.
-/

namespace TaskStack

/-- What these declarations hand over keeps the contract and is told apart by its signatures. -/
structure Declaration.Compatible (F : Declaration → Prop) : Prop where
  valid : ∀ {d x}, F d → d.Makes x → x.validate = .ok ()
  toldApart : ∀ {d d' x x'}, F d → F d' → d.Makes x → d'.Makes x' →
    x.canonicalSignature = x'.canonicalSignature → x = x'

/-- A descriptor that one of these declarations hands over. -/
def Declaration.MadeBy (F : Declaration → Prop) (x : TaskDescriptor) : Prop := ∃ d, F d ∧ d.Makes x

/-! ## Local engines -/

theorem Ledger.mem_registrations_register {l : Ledger} {d x : TaskDescriptor}
    (h : x ∈ (l.register d).2.registrations) : x ∈ l.registrations ∨ x = d := by
  obtain ⟨hsame, -⟩ | ⟨-, htaken⟩ := l.register_cases d
  · exact .inl (hsame ▸ h)
  · rw [htaken] at h
    exact (List.mem_append.1 h).imp_right List.mem_singleton.1

namespace Fleet

variable {f : Fleet} {P : TaskDescriptor → Prop} {engine : EngineId} {o : Origin}
  {d : TaskDescriptor}

/-- All engines are local, and hold no other descriptors than these. -/
def HoldsOnly (f : Fleet) (P : TaskDescriptor → Prop) : Prop :=
  ∀ e ∈ f.engines, e.IsLocal ∧ ∀ x ∈ e.ledger.registrations, P x

theorem HoldsOnly.setEngine (h : f.HoldsOnly P) {e : Engine} (he : e.IsLocal)
    (hheld : ∀ x ∈ e.ledger.registrations, P x) (id : EngineId) (event : Event) :
    ((f.setEngine id e).log event).HoldsOnly P := by
  intro e' hmem
  obtain hmem | rfl := List.mem_or_eq_of_mem_set hmem
  · exact h e' hmem
  · exact ⟨he, hheld⟩

theorem HoldsOnly.register (h : f.HoldsOnly P) (hd : P d) (engine : EngineId) (o : Origin) :
    (f.register engine o d).2.HoldsOnly P := by
  cases he : f.engines[engine]? with
  | none =>
    simp only [Fleet.register, he]
    exact h
  | some e =>
    obtain ⟨hlocal, hheld⟩ := h e (List.mem_of_getElem? he)
    rw [register_of_isLocal he hlocal]
    refine h.setEngine (hlocal.withLedger _) ?_ _ _
    intro x hx
    obtain hx | rfl := Ledger.mem_registrations_register hx
    · exact hheld x hx
    · exact hd

theorem HoldsOnly.submit (h : f.HoldsOnly P) (engine : EngineId) (o : Origin) (d : TaskDescriptor)
    (schema : Schema) (args : Args) : (f.submit engine o d schema args).2.HoldsOnly P := by
  cases he : f.engines[engine]? with
  | none =>
    simp only [Fleet.submit, he]
    exact h
  | some e =>
    obtain ⟨hlocal, hheld⟩ := h e (List.mem_of_getElem? he)
    rw [submit_of_isLocal he hlocal]
    exact h.setEngine (e := { e with ledger := e.ledger.note d.canonicalSignature args })
      (hlocal.withLedger _) hheld _ _

/-- Local engines do not panic. -/
theorem HoldsOnly.register_ne_panic (h : f.HoldsOnly P) (engine : EngineId) (o : Origin)
    (d : TaskDescriptor) (text : String) :
    (f.register engine o d).1 ≠ .error (.panic text) := by
  cases he : f.engines[engine]? with
  | none => simp [Fleet.register, he]
  | some e =>
    rw [register_of_isLocal he (h e (List.mem_of_getElem? he)).1]
    cases (e.ledger.register d).1 <;> simp [Except.mapError]

end Fleet

/-! ## Orderly sessions -/

/-- The task has one of these declarations, and its locks are sound. -/
structure Task.Sound (t : Task) (F : Declaration → Prop) : Prop where
  declaration : F t.declaration
  registration : t.registration ≠ .poisoned
  derived : ∀ x ∈ t.derived, x.poisoned = false

namespace Session

variable {s s' : Session} {F : Declaration → Prop} {id : TaskId} {t : Task}

/-- All engines are local and hold what these declarations hand over; there are no other tasks, and
all locks are sound. -/
structure Orderly (s : Session) (F : Declaration → Prop) : Prop where
  engines : s.fleet.HoldsOnly (Declaration.MadeBy F)
  tasks : ∀ id t, s.task? id = some t → t.Sound F

theorem Orderly.withFleet (h : s.Orderly F) {fleet : Fleet}
    (hf : fleet.HoldsOnly (Declaration.MadeBy F)) : ({ s with fleet } : Session).Orderly F :=
  ⟨hf, h.tasks⟩

theorem Orderly.setTask (h : s.Orderly F) (ht : s.task? id = some t) {t' : Task}
    (ht' : t'.Sound F) : (s.setTask id t').Orderly F := by
  refine ⟨h.engines, ?_⟩
  intro id' u hu
  by_cases hid : id = id'
  · subst hid
    cases hu.symm.trans (task?_setTask_self ht t')
    exact ht'
  · exact h.tasks id' u ((task?_setTask_of_ne s t' hid).symm.trans hu)

/-- **A move keeps a session orderly.** -/
theorem Move.orderly (h : Move s s') (hs : s.Orderly F) : s'.Orderly F := by
  cases h with
  | @handOver id t engine r _ ht _ hd =>
    have hsound := hs.tasks id t ht
    have hmade : Declaration.MadeBy F r.descriptor := ⟨_, hsound.declaration, .own hd⟩
    refine (hs.withFleet (hs.engines.register hmade engine (.task id))).setTask ht
      ⟨hsound.declaration, ?_, hsound.derived⟩
    intro hpoisoned
    obtain ⟨text, htext⟩ := Registration.after_eq_poisoned_iff.1 hpoisoned
    exact hs.engines.register_ne_panic engine (.task id) r.descriptor text htext
  | @handOverDerived id t engine index param _ _ ht _ hp _ =>
    have hsound := hs.tasks id t ht
    have hmade : Declaration.MadeBy F (Derived.descriptor t.declaration.info param) :=
      ⟨_, hsound.declaration, .derived param⟩
    refine (hs.withFleet (hs.engines.register hmade engine (.derived id index param))).setTask ht
      ⟨hsound.declaration, hsound.registration, ?_⟩
    intro x hx
    obtain hx | rfl := List.mem_or_eq_of_mem_set hx
    · exact hsound.derived x hx
    · refine Bool.eq_false_iff.2 fun hpoisoned => ?_
      obtain hpoisoned | ⟨text, htext⟩ := Derived.poisoned_after_iff.1 hpoisoned
      · exact Bool.false_ne_true (hp.symm.trans hpoisoned)
      · exact hs.engines.register_ne_panic engine (.derived id index param) _ text htext
  | submitDerived _ _ _ _ => exact hs.withFleet (hs.engines.submit _ _ _ _ _)
  | submit _ _ _ _ => exact hs.withFleet (hs.engines.submit _ _ _ _ _)
  | body _ _ => exact ⟨hs.engines, hs.tasks⟩

end Session

/-- A command that brings local engines which hold descriptors of these declarations only, and
declares no other tasks. -/
def Command.Suits (F : Declaration → Prop) : Command → Prop
  | .addEngine e => e.IsLocal ∧ ∀ x ∈ e.ledger.registrations, Declaration.MadeBy F x
  | .declare _ d => F d
  | _ => True

theorem Task.sound_new {F : Declaration → Prop} {d : Declaration} (h : F d) : (new d).Sound F := by
  refine ⟨h, nofun, ?_⟩
  intro x hx
  obtain ⟨layer, -, rfl⟩ := List.mem_map.1 hx
  rfl

namespace Session

variable {s s' : Session} {F : Declaration → Prop} {id : TaskId} {t : Task}

theorem Orderly.of_eq (hs : s.Orderly F) (hf : s'.fleet = s.fleet) (ht : s'.tasks = s.tasks) :
    s'.Orderly F := by
  refine ⟨hf ▸ hs.engines, ?_⟩
  intro id t h
  exact hs.tasks id t (by rwa [task?, ← ht])

theorem Orderly.moveTo (hs : s.Orderly F) (c : Except ContextError Context) :
    (s.moveTo c).2.Orderly F := by
  cases c <;> exact hs.of_eq rfl rfl

/-- A command that suits the tasks keeps a session orderly. -/
theorem Orderly.perform (hs : s.Orderly F) {c : Command} (hc : c.Suits F) :
    (s.perform c).Orderly F := by
  cases c with
  | addEngine e =>
    refine ⟨?_, hs.tasks⟩
    intro e' hmem
    obtain hmem | hmem := List.mem_append.1 hmem
    · exact hs.engines e' hmem
    · obtain rfl := List.mem_singleton.1 hmem
      exact hc
  | declare name d =>
    refine ⟨hs.engines, ?_⟩
    intro id t ht
    obtain hmem | hmem := List.mem_append.1 (List.mem_of_getElem? ht)
    · obtain ⟨id', hid'⟩ := List.mem_iff_getElem?.1 hmem
      exact hs.tasks id' t hid'
    · obtain rfl := List.mem_singleton.1 hmem
      exact Task.sound_new hc
  | setRole next =>
    simp only [Session.perform, setRole]
    split <;> exact hs.of_eq rfl rfl
  | startSubmitter engine => exact hs.moveTo _
  | startWorker => exact hs.moveTo _
  | stop => exact hs.of_eq rfl rfl
  | call id args depth =>
    exact (callWithin_moves depth id args s).keeps (fun _ _ hmove => hmove.orderly) hs

theorem orderly_empty (F : Declaration → Prop) : ({} : Session).Orderly F :=
  ⟨nofun, nofun⟩

theorem Orderly.performAll (hs : s.Orderly F) {commands : List Command}
    (hc : ∀ c ∈ commands, c.Suits F) : (s.performAll commands).Orderly F := by
  induction commands generalizing s with
  | nil => exact hs
  | cons c rest ih =>
    obtain ⟨hfirst, hrest⟩ := List.forall_mem_cons.1 hc
    exact ih (hs.perform hfirst) hrest

/-! ## Calls in an orderly session -/

/-- A submitter is attached to an engine that is there. -/
def Attached (s : Session) : Prop :=
  s.context.role = .submitter → ∃ engine, s.context.engine = some engine ∧
    engine < s.fleet.engines.length

theorem Orderly.accepts (hs : s.Orderly F) (hF : Declaration.Compatible F)
    (ht : s.task? id = some t) (hattached : s.Attached) (hrole : s.context.role = .submitter)
    (args : Args) : s.Accepts t args := by
  have hsound := hs.tasks id t ht
  obtain ⟨engine, hengine, hlt⟩ := hattached hrole
  refine ⟨hrole, ⟨engine, hengine, s.fleet.engines[engine], List.getElem?_eq_getElem hlt, ?_⟩,
    hsound.registration, hsound.derived⟩
  obtain ⟨hlocal, hheld⟩ := hs.engines _ (List.getElem_mem hlt)
  refine ⟨hlocal, ?_⟩
  intro x hx
  have hmade : t.declaration.Makes x := by
    obtain ⟨r, -, hr, rfl⟩ | ⟨param, rfl⟩ := mem_handOvers hx
    · exact .own hr
    · exact .derived param
  refine Ledger.takes_iff.2 ⟨hF.valid hsound.declaration hmade, ?_⟩
  intro held hfound
  obtain ⟨d', hd', hmade'⟩ := hheld held (List.mem_of_find?_eq_some hfound)
  have hsignature : held.canonicalSignature = x.canonicalSignature := by
    simpa using List.find?_some hfound
  exact hF.toldApart hd' hsound.declaration hmade' hmade hsignature

end Session

/-- What a call means in a role: the function of the arguments, or of those that the transformation
layers make of them. -/
def Declaration.meaning (d : Declaration) (f : Bound → Except Abort Value) (role : Role)
    (args : Args) : Except Fault Value :=
  if role = .submitter then
    match args.throughLayers d.info (inForce d.layers args.transforms) with
    | .ok a => (f (Bound.of d.info.schema a)).mapError Abort.fault
    | .error fault => .error fault
  else (f (Bound.of d.info.schema args)).mapError Abort.fault

namespace Session

variable {s : Session} {F : Declaration → Prop} {id : TaskId} {t : Task}

/-- **A call in an orderly session has its meaning**, whatever has happened in the session. -/
theorem Orderly.callWithin (hs : s.Orderly F) (hF : Declaration.Compatible F)
    (ht : s.task? id = some t) {f : Bound → Except Abort Value} (hf : t.declaration.Computes f)
    (hattached : s.Attached) (depth : Nat) (args : Args) :
    (callWithin (depth + 1) id args s).1 = t.declaration.meaning f s.context.role args := by
  simp only [Session.callWithin, ht]
  by_cases hrole : s.context.role = .submitter
  · have hanswer := callInScope_of_accepts (callNamed (Session.callWithin depth)) ht hf
      (hs.accepts hF ht hattached hrole args)
    rw [Declaration.meaning, if_pos hrole]
    cases hlayers : args.throughLayers t.declaration.info
        (inForce t.declaration.layers args.transforms) with
    | ok a =>
      simp only [hlayers] at hanswer
      exact hanswer.1
    | error fault =>
      simp only [hlayers] at hanswer
      exact hanswer.1
  · rw [callInScope_of_not_submitter _ ht hf hrole, Declaration.meaning, if_neg hrole]

end Session
end TaskStack
