import TaskStack.Proofs.Session.Moves
import TaskStack.Session.Command

/-!
# Runs of commands

A run of commands changes a session by the moves of its calls and by what the other commands do:
they bring engines, change the context and declare tasks, and leave the history and every declared
task alone.

* `perform_cases`: a command moves or prepares.
* `Reaches.keeps`: what moves and preparations keep holds at every later point of a run.
* `Reaches.grows`: the history grows, and what was handed over stays.
-/

namespace TaskStack.Session

variable {s s' s'' : Session}

/-- The descriptor that was handed over for a task, and the layer that made it. -/
def handedOver? (s : Session) (id : TaskId) : Option Registered :=
  (s.task? id).bind (·.registration.registered?)

theorem handedOver?_eq_some_iff {id : TaskId} {r : Registered} :
    s.handedOver? id = some r ↔ ∃ t, s.task? id = some t ∧ t.registration = .done r := by
  rw [handedOver?, Option.bind_eq_some_iff]
  apply exists_congr
  intro t
  apply and_congr_right
  intro _
  cases t.registration <;> simp [Registration.registered?]

/-- What the commands do that are no calls: the history stays, and so does every engine and every
task but for those that are new. -/
structure Prepares (s s' : Session) : Prop where
  history : s'.fleet.history = s.fleet.history
  engines : s.fleet.engines <+: s'.fleet.engines
  tasks : ∀ id, s'.task? id = s.task? id ∨
    s.task? id = none ∧ ∃ d, s'.task? id = some (.new d)

theorem Prepares.handedOver? (h : s.Prepares s') (id : TaskId) :
    s'.handedOver? id = s.handedOver? id := by
  obtain hid | ⟨hnone, d, hd⟩ := h.tasks id
  · rw [Session.handedOver?, hid, ← Session.handedOver?]
  · rw [Session.handedOver?, Session.handedOver?, hnone, hd]
    rfl

theorem prepares_of_tasks_eq (hf : s'.fleet = s.fleet) (ht : s'.tasks = s.tasks) :
    s.Prepares s' where
  history := congrArg Fleet.history hf
  engines := hf ▸ List.prefix_rfl
  tasks := fun id => .inl (congrArg (·[id]?) ht)

theorem addEngine_prepares (s : Session) (e : Engine) : s.Prepares (s.addEngine e).2 :=
  ⟨rfl, List.prefix_append .., fun _ => .inl rfl⟩

theorem declare_prepares (s : Session) (name : String) (d : Declaration) :
    s.Prepares (s.declare name d).2 := by
  refine ⟨rfl, List.prefix_rfl, ?_⟩
  intro id
  simp only [task?, declare]
  rcases Nat.lt_trichotomy id s.tasks.length with hlt | heq | hgt
  · exact .inl (List.getElem?_append_left hlt)
  · refine .inr ⟨List.getElem?_eq_none (Nat.le_of_eq heq.symm), d, ?_⟩
    rw [heq, List.getElem?_concat_length]
  · have hout : s.tasks.length + 1 ≤ id := hgt
    refine .inl ?_
    rw [List.getElem?_eq_none (Nat.le_of_lt hgt)]
    exact List.getElem?_eq_none (by simpa using hout)

theorem moveTo_prepares (s : Session) (c : Except ContextError Context) :
    s.Prepares (s.moveTo c).2 := by
  cases c <;> exact prepares_of_tasks_eq rfl rfl

/-- A command that is no call prepares. -/
theorem perform_prepares {c : Command} (hc : ∀ id args depth, c ≠ .call id args depth) :
    s.Prepares (s.perform c) := by
  cases c with
  | addEngine e => exact addEngine_prepares s e
  | setRole next =>
    simp only [perform, setRole]
    split <;> exact prepares_of_tasks_eq rfl rfl
  | startSubmitter engine => exact moveTo_prepares s _
  | startWorker => exact moveTo_prepares s _
  | stop => exact prepares_of_tasks_eq rfl rfl
  | declare name d => exact declare_prepares s name d
  | call id args depth => exact absurd rfl (hc id args depth)

/-- **A command moves or prepares.** -/
theorem perform_cases (s : Session) (c : Command) :
    Moves s (s.perform c) ∨ s.Prepares (s.perform c) := by
  by_cases hc : ∃ id args depth, c = .call id args depth
  · obtain ⟨id, args, depth, rfl⟩ := hc
    exact .inl (callWithin_moves depth id args s)
  · exact .inr (perform_prepares fun id args depth h => hc ⟨id, args, depth, h⟩)

theorem performAll_append (s : Session) (cs cs' : List Command) :
    s.performAll (cs ++ cs') = (s.performAll cs).performAll cs' := List.foldl_append

/-- A session at a later point of a run: after commands, and perhaps in the midst of a call. -/
inductive Reaches (s : Session) : Session → Prop
  | refl : Reaches s s
  | move {s' s'' : Session} : Reaches s s' → Move s' s'' → Reaches s s''
  | perform {s' : Session} (c : Command) : Reaches s s' → Reaches s (s'.perform c)

theorem Reaches.performAll (h : s.Reaches s') (commands : List Command) :
    s.Reaches (s'.performAll commands) := by
  induction commands generalizing s' with
  | nil => exact h
  | cons c rest ih => exact ih (h.perform c)

theorem Reaches.moves (h : s.Reaches s') (hmoves : Moves s' s'') : s.Reaches s'' := by
  induction hmoves with
  | refl => exact h
  | tail _ hmove ih => exact ih.move hmove

/-- What moves and preparations keep holds at every later point of a run. -/
theorem Reaches.keeps {I : Session → Prop} (hmove : ∀ s s', Move s s' → I s → I s')
    (hprepare : ∀ s s', s.Prepares s' → I s → I s') (h : s.Reaches s') (hs : I s) : I s' := by
  induction h with
  | refl => exact hs
  | move _ hstep ih => exact hmove _ _ hstep ih
  | perform c _ ih =>
    obtain hmoves | hprep := perform_cases _ c
    · exact hmoves.keeps hmove ih
    · exact hprepare _ _ hprep ih

/-- A later state of a session, perhaps in another context. -/
structure Grows (s s' : Session) : Prop where
  tasks : ∀ {id t}, s.task? id = some t → ∃ t', s'.task? id = some t' ∧ t.Extends t'
  history : s.fleet.history <:+ s'.fleet.history

theorem Grows.trans (h : s.Grows s') (h' : s'.Grows s'') : s.Grows s'' where
  tasks ht := by
    obtain ⟨t', ht', hext⟩ := h.tasks ht
    obtain ⟨t'', ht'', hext'⟩ := h'.tasks ht'
    exact ⟨t'', ht'', hext.trans hext'⟩
  history := h.history.trans h'.history

theorem Extends.grows (h : s.Extends s') : s.Grows s' := ⟨h.tasks, h.history⟩

theorem Prepares.grows (h : s.Prepares s') : s.Grows s' := by
  constructor
  · intro id t ht
    obtain hid | ⟨hnone, -⟩ := h.tasks id
    · exact ⟨t, hid.trans ht, .refl t⟩
    · cases hnone.symm.trans ht
  · exact h.history ▸ List.suffix_rfl

theorem Reaches.grows (h : s.Reaches s') : s.Grows s' := by
  have hmove : ∀ u u', Move u u' → s.Grows u → s.Grows u' := fun _ _ hstep hgrows =>
    hgrows.trans hstep.extends.grows
  have hprepare : ∀ u u', u.Prepares u' → s.Grows u → s.Grows u' := fun _ _ hprep hgrows =>
    hgrows.trans hprep.grows
  exact h.keeps hmove hprepare (Extends.refl s).grows

theorem Grows.handedOver? (h : s.Grows s') {id : TaskId} {r : Registered}
    (hr : s.handedOver? id = some r) : s'.handedOver? id = some r := by
  obtain ⟨t, ht, hreg⟩ := handedOver?_eq_some_iff.1 hr
  obtain ⟨t', ht', hext⟩ := h.tasks ht
  exact handedOver?_eq_some_iff.2 ⟨t', ht', hext.registration r hreg⟩

end TaskStack.Session
