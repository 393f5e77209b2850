import TaskStack.Proofs.Session.Roles
import Mathlib.Data.List.Induction

/-!
# Who took the descriptor of a submission

What is remembered as handed over belongs to the task and its layers, and the engine belongs to the
context. So the engine that is asked to run something may be another than the one that took the
descriptor: it was attached later, and nothing is handed over anew. Between two attachments the
engine stays the same, and then it is the one that took the descriptor.

**Theorem (`performAll_accepted`).** Whenever a run submits a descriptor to an engine, an engine has
taken that descriptor before on the account of the same task or layer. It is the engine of the
submission, unless that one was attached after the hand-over.

* `Move.remembers`: a descriptor is remembered from the moment that the engine takes it.
* `Move.submits`: only what is remembered is submitted, and to the engine of the context.
* `Move.covered`, `performAll_covered`: the invariant that ties both together.
-/

namespace TaskStack.Session

variable {s s' : Session} {o : Origin} {d : TaskDescriptor} {engine : EngineId}

/-! ## What is remembered -/

/-- A descriptor is remembered as handed over on an account. -/
def Remembers (s : Session) : Origin → TaskDescriptor → Prop
  | .task id, d => ∃ t r, s.task? id = some t ∧ t.registration = .done r ∧ r.descriptor = d
  | .derived id index param, d =>
    ∃ t, s.task? id = some t ∧ (t.derivedAt index).descriptors.get? param = some d
  | .other, _ => False

/-- What is remembered after one task has changed. -/
theorem remembers_setTask {id : TaskId} {t t' : Task} {fleet : Fleet} (ht : s.task? id = some t)
    (h : ({ s with fleet }.setTask id t').Remembers o d) :
    s.Remembers o d ∨
      (∃ r, o = .task id ∧ t'.registration = .done r ∧ r.descriptor = d) ∨
      ∃ index param, o = .derived id index param ∧
        (t'.derivedAt index).descriptors.get? param = some d := by
  have hself := task?_setTask_self (s := { s with fleet }) ht t'
  cases o with
  | task id' =>
    obtain ⟨u, r, hu, hr, hd⟩ := h
    by_cases hid : id = id'
    · subst hid
      cases hself.symm.trans hu
      exact .inr (.inl ⟨r, rfl, hr, hd⟩)
    · rw [task?_setTask_of_ne _ _ hid] at hu
      exact .inl ⟨u, r, hu, hr, hd⟩
  | derived id' index param =>
    obtain ⟨u, hu, hd⟩ := h
    by_cases hid : id = id'
    · subst hid
      cases hself.symm.trans hu
      exact .inr (.inr ⟨index, param, rfl, hd⟩)
    · rw [task?_setTask_of_ne _ _ hid] at hu
      exact .inl ⟨u, hu, hd⟩
  | other => exact h.elim

theorem handOver_remembers {id : TaskId} {t : Task} {r : Registered} (ht : s.task? id = some t)
    (h : (s.handOver engine id t r).Remembers o d) :
    s.Remembers o d ∨ (s.handOver engine id t r).fleet.history =
      .register engine o d (.ok ()) :: s.fleet.history := by
  obtain h | ⟨r', rfl, hr, rfl⟩ | ⟨index, param, rfl, hd⟩ := remembers_setTask ht h
  · exact .inl h
  · obtain ⟨-, hf⟩ | ⟨answer, engines, hf⟩ :=
      s.fleet.register_cases engine (.task id) r.descriptor
    · rw [hf] at hr
      cases hr
    · rw [hf] at hr
      cases answer with
      | ok u =>
        cases hr
        exact .inr (by rw [handOver, hf]; rfl)
      | error fault => cases fault <;> cases hr
  · exact .inl ⟨t, ht, hd⟩

theorem handOverDerived_remembers {id : TaskId} {t : Task} {index : Nat} {param : String}
    (ht : s.task? id = some t) (hindex : index < t.declaration.layers.length)
    (h : (s.handOverDerived engine id t index param).Remembers o d) :
    s.Remembers o d ∨ (s.handOverDerived engine id t index param).fleet.history =
      .register engine o d (.ok ()) :: s.fleet.history := by
  obtain h | ⟨r, rfl, hr, hd⟩ | ⟨index', param', rfl, hd⟩ := remembers_setTask ht h
  · exact .inl h
  · exact .inl ⟨t, r, ht, hr, hd⟩
  · by_cases hne : index = index'
    · subst hne
      rw [t.derivedAt_setDerived_self _ hindex] at hd
      obtain ⟨-, hf⟩ | ⟨answer, engines, hf⟩ := s.fleet.register_cases engine
        (.derived id index param) (Derived.descriptor t.declaration.info param)
      · rw [hf] at hd
        exact .inl ⟨t, ht, hd⟩
      · rw [hf] at hd
        cases answer with
        | ok u =>
          simp only [Derived.after, Dict.get?_insert] at hd
          split at hd
          · next hparam =>
            cases hd
            subst hparam
            exact .inr (by rw [handOverDerived, hf]; rfl)
          · exact .inl ⟨t, ht, hd⟩
        | error fault => cases fault <;> exact .inl ⟨t, ht, hd⟩
    · rw [t.derivedAt_setDerived_of_ne _ hne] at hd
      exact .inl ⟨t, ht, hd⟩

/-- A descriptor is remembered from the moment that the engine takes it. -/
theorem Move.remembers (h : Move s s') (hr : s'.Remembers o d) :
    s.Remembers o d ∨ ∃ engine, s.Submits engine ∧
      s'.fleet.history = .register engine o d (.ok ()) :: s.fleet.history := by
  cases h with
  | handOver hs ht _ _ => exact (handOver_remembers ht hr).imp_right fun h => ⟨_, hs, h⟩
  | handOverDerived hs ht hlayer _ _ =>
    have hindex := (List.getElem?_eq_some_iff.1 hlayer).1
    exact (handOverDerived_remembers ht hindex hr).imp_right fun h => ⟨_, hs, h⟩
  | submitDerived _ _ _ _ => cases o <;> exact .inl hr
  | submit _ _ _ _ => cases o <;> exact .inl hr
  | body _ _ => cases o <;> exact .inl hr

/-- Only what is remembered is submitted, and to the engine of the context. -/
theorem Move.submits (h : Move s s') :
    s'.fleet.history = s.fleet.history ∨ ∃ e, s'.fleet.history = e :: s.fleet.history ∧
      ∀ engine o d schema args, e = .submit engine o d schema args →
        s.Submits engine ∧ s.Remembers o d := by
  cases h with
  | @handOver id t engine r _ _ _ _ =>
    obtain hsame | ⟨answer, hcons⟩ := s.handOver_history engine id t r
    · exact .inl hsame
    · refine .inr ⟨_, hcons, ?_⟩
      intro _ _ _ _ _ he
      cases he
  | @handOverDerived id t engine index param _ _ _ _ _ _ =>
    obtain hsame | ⟨d, answer, hcons⟩ := s.handOverDerived_history engine id t index param
    · exact .inl hsame
    · refine .inr ⟨_, hcons, ?_⟩
      intro _ _ _ _ _ he
      cases he
  | submitDerived args hs ht hd =>
    obtain hsame | hcons := s.submitted_history _ _ _ Derived.schema args
    · exact .inl hsame
    · refine .inr ⟨_, hcons, ?_⟩
      intro _ _ _ _ _ he
      cases he
      exact ⟨hs, _, ht, hd⟩
  | @submit id t engine r args hs ht hr =>
    obtain hsame | hcons := s.submitted_history engine (.task id) r.descriptor
      t.declaration.info.schema args
    · exact .inl hsame
    · refine .inr ⟨_, hcons, ?_⟩
      intro _ _ _ _ _ he
      cases he
      exact ⟨hs, t, r, ht, hr, rfl⟩
  | body _ _ =>
    refine .inr ⟨_, rfl, ?_⟩
    intro _ _ _ _ _ he
    cases he

theorem Prepares.remembers (h : s.Prepares s') (hr : s'.Remembers o d) : s.Remembers o d := by
  cases o with
  | task id =>
    obtain ⟨t, r, ht, hr, hd⟩ := hr
    obtain heq | ⟨-, x, hx⟩ := h.tasks id
    · exact ⟨t, r, heq ▸ ht, hr, hd⟩
    · cases hx.symm.trans ht
      cases hr
  | derived id index param =>
    obtain ⟨t, ht, hd⟩ := hr
    obtain heq | ⟨-, x, hx⟩ := h.tasks id
    · exact ⟨t, heq ▸ ht, hd⟩
    · cases hx.symm.trans ht
      rw [Task.derivedAt_new] at hd
      cases hd
  | other => exact hr

/-! ## The engine of the context -/

/-- A command attaches an engine only by starting a submitter with it. -/
theorem perform_engine (s : Session) (c : Command)
    (h : (s.perform c).context.engine = some engine) :
    s.context.engine = some engine ∨
      c = .startSubmitter engine ∧ (s.startSubmitter engine).1 = .ok () := by
  obtain ⟨-, -, -, hsame⟩ | ⟨next, -, ⟨-, hsame, -⟩ | ⟨-, hanswer, hset⟩⟩ := s.perform_context c
  · rw [hsame] at h
    exact .inl h
  · rw [hsame] at h
    exact .inl h
  · rw [hset] at h
    dsimp only at h
    split at h
    · cases h
    · cases c with
      | startSubmitter engine' =>
        cases h
        exact .inr ⟨rfl, hanswer⟩
      | _ => exact .inl h

/-- In a run of commands the engine was attached when the event had already happened. -/
def AttachedAfter (commands : List Command) (engine : EngineId) (e : Event)
    (history : List Event) : Prop :=
  ∃ before after, commands = before ++ .startSubmitter engine :: after ∧
    ((({} : Session).performAll before).startSubmitter engine).1 = .ok () ∧
    e ∈ (({} : Session).performAll before).fleet.history ∧
    (({} : Session).performAll before).fleet.history <:+ history

/-- An engine took the descriptor on the account, and it is the given one unless that was attached
later. -/
def Accepted (commands : List Command) (engine : EngineId) (o : Origin) (d : TaskDescriptor)
    (history : List Event) : Prop :=
  ∃ engine', .register engine' o d (.ok ()) ∈ history ∧ (engine' = engine ∨
    AttachedAfter commands engine (.register engine' o d (.ok ())) history)

theorem Accepted.mono {commands commands' : List Command} {history history' : List Event}
    (h : Accepted commands engine o d history) (hc : commands <+: commands')
    (hh : history <:+ history') : Accepted commands' engine o d history' := by
  obtain ⟨engine', hmem, hengine⟩ := h
  refine ⟨engine', hh.mem hmem, hengine.imp_right ?_⟩
  obtain ⟨rest, rfl⟩ := hc
  rintro ⟨before, after, rfl, hstart, he, hsuffix⟩
  exact ⟨before, after ++ rest, by simp, hstart, he, hsuffix.trans hh⟩

/-- What is remembered was taken by an engine, and what was submitted was taken before. -/
structure Covered (commands : List Command) (s : Session) : Prop where
  taken : ∀ {o d}, s.Remembers o d → ∃ engine, .register engine o d (.ok ()) ∈ s.fleet.history
  accepted : ∀ {o d engine}, s.Remembers o d → s.context.engine = some engine →
    Accepted commands engine o d s.fleet.history
  submitted : ∀ {later earlier engine o d schema args},
    s.fleet.history = later ++ .submit engine o d schema args :: earlier →
    Accepted commands engine o d earlier

theorem Move.covered {commands : List Command} (h : Move s s') (hs : Covered commands s) :
    Covered commands s' := by
  have hext := h.extends
  constructor
  · intro o d hr
    obtain hr | ⟨engine, -, heq⟩ := h.remembers hr
    · obtain ⟨engine, hmem⟩ := hs.taken hr
      exact ⟨engine, hext.history.mem hmem⟩
    · exact ⟨engine, heq ▸ List.mem_cons_self⟩
  · intro o d engine hr he
    rw [hext.context] at he
    obtain hr | ⟨engine', hsub, heq⟩ := h.remembers hr
    · exact (hs.accepted hr he).mono (List.prefix_rfl) hext.history
    · cases hsub.engine.symm.trans he
      exact ⟨engine, heq ▸ List.mem_cons_self, .inl rfl⟩
  · intro later earlier engine o d schema args heq
    obtain hsame | ⟨e, hcons, hevent⟩ := h.submits
    · exact hs.submitted (hsame.symm.trans heq)
    · cases later with
      | nil =>
        obtain ⟨rfl, rfl⟩ := List.cons.inj (hcons.symm.trans heq)
        obtain ⟨hsub, hr⟩ := hevent _ _ _ _ _ rfl
        exact hs.accepted hr hsub.engine
      | cons x later => exact hs.submitted (List.cons.inj (hcons.symm.trans heq)).2

theorem Covered.mono {commands commands' : List Command} (h : Covered commands s)
    (hc : commands <+: commands') : Covered commands' s :=
  ⟨h.taken, fun hr he => (h.accepted hr he).mono hc List.suffix_rfl,
    fun heq => (h.submitted heq).mono hc List.suffix_rfl⟩

/-- After a command that is no call an engine that was not attached before was attached later than
everything that is remembered. -/
theorem Prepares.covered {commands : List Command} {c : Command}
    (hrun : ({} : Session).performAll commands = s) (h : s.Prepares (s.perform c))
    (hs : Covered commands s) : Covered (commands ++ [c]) (s.perform c) := by
  have hs' := hs.mono (List.prefix_append commands [c])
  constructor
  · intro o d hr
    rw [h.history]
    exact hs.taken (h.remembers hr)
  · intro o d engine hr he
    rw [h.history]
    obtain he | ⟨rfl, hstart⟩ := s.perform_engine c he
    · exact hs'.accepted (h.remembers hr) he
    · obtain ⟨engine', hmem⟩ := hs.taken (h.remembers hr)
      refine ⟨engine', hmem, .inr ⟨commands, [], rfl, ?_⟩⟩
      rw [hrun]
      exact ⟨hstart, hmem, List.suffix_rfl⟩
  · intro later earlier engine o d schema args heq
    exact hs'.submitted (h.history.symm.trans heq)

theorem performAll_covered (commands : List Command) :
    Covered commands (({} : Session).performAll commands) := by
  induction commands using List.reverseRecOn with
  | nil =>
    constructor
    · intro o d hr
      cases o with
      | task id =>
        obtain ⟨t, r, ht, -⟩ := hr
        cases ht
      | derived id index param =>
        obtain ⟨t, ht, -⟩ := hr
        cases ht
      | other => exact hr.elim
    · intro o d engine _ he
      cases he
    · intro later earlier engine o d schema args heq
      cases later with
      | nil => cases heq
      | cons x later => cases heq
  | append_singleton commands c ih =>
    rw [performAll_append]
    obtain hmoves | hprep := (({} : Session).performAll commands).perform_cases c
    · exact hmoves.keeps (fun _ _ hmove => hmove.covered) (ih.mono (List.prefix_append _ _))
    · exact hprep.covered rfl ih

/-- **An engine is asked to run what it took, or what was taken before it was attached.** -/
theorem performAll_accepted (commands : List Command) (later earlier : List Event)
    {engine : EngineId} {o : Origin} {d : TaskDescriptor} {schema : Schema} {args : Args}
    (h : (({} : Session).performAll commands).fleet.history =
      later ++ .submit engine o d schema args :: earlier) :
    ∃ engine', .register engine' o d (.ok ()) ∈ earlier ∧ (engine' = engine ∨
      AttachedAfter commands engine (.register engine' o d (.ok ())) earlier) :=
  (performAll_covered commands).submitted h

/-- A task that does nothing. -/
def idle : Declaration := ⟨⟨"demo", "idle", {}⟩, [.task {}], fun _ => .done (.ok .null)⟩

/-- A process that leaves the system after a call and comes back with another engine. -/
def comeBack : List Command :=
  [.addEngine {}, .addEngine {}, .declare "idle" idle, .startSubmitter 0, .call 0 {} 1, .stop,
    .startSubmitter 1, .call 0 {} 1]

/-- **The engine that is asked need not have taken the descriptor.** -/
theorem not_submitted_after_register :
    ¬ ∀ (commands : List Command) (later earlier : List Event) (engine : EngineId) (o : Origin)
      (d : TaskDescriptor) (schema : Schema) (args : Args),
      (({} : Session).performAll commands).fleet.history =
        later ++ .submit engine o d schema args :: earlier →
      ∃ o', .register engine o' d (.ok ()) ∈ earlier := by
  intro h
  obtain ⟨o', hmem⟩ := h comeBack [.body 0 .submitter] [.body 0 .submitter,
    .submit 0 (.task 0) _ {} {}, .register 0 (.task 0) _ (.ok ())] 1 (.task 0) _ {} {} rfl
  simp at hmem

/-- The second engine is asked to run what the first one took. -/
theorem performAll_accepted_comeBack :
    ∃ d earlier, (({} : Session).performAll comeBack).fleet.history =
        .body 0 .submitter :: .submit 1 (.task 0) d {} {} :: earlier ∧
      ∃ engine, .register engine (.task 0) d (.ok ()) ∈ earlier ∧ (engine = 1 ∨
        AttachedAfter comeBack 1 (.register engine (.task 0) d (.ok ())) earlier) :=
  ⟨_, _, rfl, performAll_accepted comeBack [.body 0 .submitter] _ rfl⟩

end TaskStack.Session
