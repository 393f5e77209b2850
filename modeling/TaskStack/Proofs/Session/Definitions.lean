import TaskStack.Proofs.Engine.Taken
import TaskStack.Proofs.Session.Books
import TaskStack.Proofs.Task.Signature

/-!
# What engines take, and under which signature

An engine is handed the descriptors of the tasks that are declared and of their derived tasks. Each
of these has a definition, and with the layers of this library the signature of its descriptor is
the signature of the definition. A local engine keeps descriptors by signature. So it tells apart
what signatures tell apart, and no more: a second definition with the same signature meets what was
taken for the first.

**Theorem (`performAll_signatures`).** The descriptors that engines are handed in a run have the
signatures of the definitions on whose account they are handed over, if these have layers of this
library. If the names of two definitions have different pieces, a local engine that takes the
descriptors of both holds both.

* `Reaches.describes`: the descriptors of a run are those of its tasks and derived tasks.
* `Reaches.holdsTaken`: a local engine holds what it has taken.
-/

namespace TaskStack

/-- The task was accepted with its layers, and all of them are layers of this library. -/
structure Declaration.BuiltIn (x : Declaration) : Prop where
  build : Declaration.build x.info x.layers x.body = .ok x
  layers : ∀ l ∈ x.layers, l.isBuiltIn = true

theorem Declaration.BuiltIn.canonicalSignature {x : Declaration} (h : x.BuiltIn)
    {signature : String} (hs : x.canonicalSignature? = some signature) :
    signature = x.signature :=
  canonicalSignature?_of_isBuiltIn h.layers (countP_of_build h.build) hs

namespace Session

variable {s s' : Session} {o : Origin} {d : TaskDescriptor}

/-! ## Definitions of a session -/

/-- The declaration of a task. -/
def declared? (s : Session) (id : TaskId) : Option Declaration :=
  (s.task? id).map (·.declaration)

/-- The definition on whose account an engine is asked. -/
def definition? (s : Session) : Origin → Option Definition
  | .task id => (s.declared? id).map fun d => .task d.info.module d.info.name
  | .derived id _ param => (s.declared? id).map fun d => .derived d.info.module d.info.name param
  | .other => none

/-- The descriptor is what the layers make of the task, or the one of the derived task. -/
def Describes (s : Session) : Origin → TaskDescriptor → Prop
  | .task id, d => ∃ x r, s.declared? id = some x ∧
      Declaration.describe x.info x.layers = .ok r ∧ r.descriptor = d
  | .derived id _ param, d => ∃ x, s.declared? id = some x ∧ Derived.descriptor x.info param = d
  | .other, _ => False

theorem Describes.mono (hdeclared : ∀ id x, s.declared? id = some x → s'.declared? id = some x)
    (h : s.Describes o d) : s'.Describes o d := by
  cases o with
  | task id =>
    obtain ⟨x, r, hx, hr⟩ := h
    exact ⟨x, r, hdeclared id x hx, hr⟩
  | derived id index param =>
    obtain ⟨x, hx, hd⟩ := h
    exact ⟨x, hdeclared id x hx, hd⟩
  | other => exact h

theorem Grows.declared? (h : s.Grows s') {id : TaskId} {x : Declaration}
    (hx : s.declared? id = some x) : s'.declared? id = some x := by
  obtain ⟨t, ht, rfl⟩ := Option.map_eq_some_iff.1 hx
  obtain ⟨t', ht', hext⟩ := h.tasks ht
  rw [Session.declared?, ht', ← hext.declaration]
  rfl

/-- An engine is handed the descriptor of a task or of a derived task. -/
theorem Move.describes (h : Move s s') : s'.fleet.history = s.fleet.history ∨
    ∃ e, s'.fleet.history = e :: s.fleet.history ∧
      ∀ engine o d answer, e = .register engine o d answer → s.Describes o d := by
  cases h with
  | @handOver id t engine r _ ht _ hd =>
    refine (s.handOver_history engine id t r).imp_right ?_
    rintro ⟨answer, hcons⟩
    refine ⟨_, hcons, ?_⟩
    rintro engine' o d answer' heq
    cases heq
    exact ⟨_, r, congrArg (Option.map _) ht, hd, rfl⟩
  | @handOverDerived id t engine index param specs _ ht _ _ _ =>
    obtain ⟨-, hf⟩ | ⟨answer, engines, hf⟩ := s.fleet.register_cases engine
      (.derived id index param) (Derived.descriptor t.declaration.info param)
    · exact .inl (congrArg (·.2.history) hf)
    · refine .inr ⟨_, congrArg (·.2.history) hf, ?_⟩
      rintro engine' o d answer' heq
      cases heq
      exact ⟨_, congrArg (Option.map _) ht, rfl⟩
  | submitDerived args _ _ _ =>
    refine (s.submitted_history _ _ _ Derived.schema args).imp_right fun hcons => ⟨_, hcons, ?_⟩
    rintro _ _ _ _ heq
    cases heq
  | submit args _ _ _ =>
    refine (s.submitted_history _ _ _ _ args).imp_right fun hcons => ⟨_, hcons, ?_⟩
    rintro _ _ _ _ heq
    cases heq
  | body _ _ =>
    refine .inr ⟨_, rfl, ?_⟩
    rintro _ _ _ _ heq
    cases heq

/-- **The descriptors that engines are handed in a run are those of its tasks.** -/
theorem Reaches.describes (h : ({} : Session).Reaches s) :
    ∀ engine o d answer, .register engine o d answer ∈ s.fleet.history → s.Describes o d := by
  refine h.keeps (I := fun s => ∀ engine o d answer,
    .register engine o d answer ∈ s.fleet.history → s.Describes o d) ?_ ?_ (by simp)
  · intro s s' hmove hs engine o d answer hmem
    have hgrows := hmove.extends.grows
    refine Describes.mono (fun _ _ => hgrows.declared?) ?_
    obtain hsame | ⟨e, hcons, he⟩ := hmove.describes
    · exact hs engine o d answer (hsame ▸ hmem)
    · obtain heq | hmem := List.mem_cons.1 (hcons ▸ hmem)
      · exact he engine o d answer heq.symm
      · exact hs engine o d answer hmem
  · intro s s' hprep hs engine o d answer hmem
    exact (hs engine o d answer (hprep.history ▸ hmem)).mono fun _ _ => hprep.grows.declared?

/-! ## Local engines in a run -/

/-- What asking engines and running bodies keep, a move keeps. -/
theorem Move.fleet {I : Fleet → Prop}
    (hregister : ∀ f engine o d, I f → I (f.register engine o d).2)
    (hsubmit : ∀ f engine o d schema args, I f → I (f.submit engine o d schema args).2)
    (hbody : ∀ f id role, I f → I (f.log (.body id role))) (h : Move s s') (hs : I s.fleet) :
    I s'.fleet := by
  cases h with
  | handOver _ _ _ _ => exact hregister _ _ _ _ hs
  | handOverDerived _ _ _ _ _ => exact hregister _ _ _ _ hs
  | submitDerived _ _ _ _ => exact hsubmit _ _ _ _ _ _ hs
  | submit _ _ _ _ => exact hsubmit _ _ _ _ _ _ hs
  | body _ _ => exact hbody _ _ _ hs

theorem Reaches.known (h : ({} : Session).Reaches s) : s.fleet.Known := by
  refine h.keeps (I := fun s => s.fleet.Known) ?_ ?_ (fun _ _ _ _ hmem => by cases hmem)
  · intro s s' hmove hs
    refine hmove.fleet (fun f engine o d hf => hf.register engine o d)
      (fun f engine o d schema args hf => hf.submit engine o d schema args) ?_ hs
    intro f id role hf engine o d answer hmem
    obtain heq | hmem := List.mem_cons.1 hmem
    · cases heq
    · exact hf engine o d answer hmem
  · intro s s' hprep hs engine o d answer hmem
    exact Nat.lt_of_lt_of_le (hs engine o d answer (hprep.history ▸ hmem)) hprep.engines.length_le

/-- **A local engine goes on holding what it takes.** -/
theorem Reaches.holdsTaken {i : EngineId} (h : s.Reaches s') (hs : s.fleet.HoldsTaken i) :
    s'.fleet.HoldsTaken i := by
  refine h.keeps (I := fun s => s.fleet.HoldsTaken i) ?_ ?_ hs
  · intro s s' hmove hs
    exact hmove.fleet (I := fun f => f.HoldsTaken i) (fun f engine o d hf => hf.register engine o d)
      (fun f engine o d schema args hf => hf.submit engine o d schema args)
      (fun f id role hf => hf.body id role) hs
  · rintro s s' hprep ⟨e, he, hlocal, hholds⟩
    obtain ⟨new, hnew⟩ := hprep.engines
    refine ⟨e, ?_, hlocal, ?_⟩
    · rw [← hnew, List.getElem?_append_left (List.getElem?_eq_some_iff.1 he).1]
      exact he
    · intro d
      rw [hholds, Fleet.Taken, Fleet.Taken, hprep.history]

/-- A local engine that comes without descriptors has taken none. -/
theorem addEngine_holdsTaken (hs : s.fleet.Known) {e : Engine} (hlocal : e.IsLocal)
    (hempty : e.ledger.registrations = []) :
    (s.perform (.addEngine e)).fleet.HoldsTaken s.fleet.engines.length := by
  refine ⟨e, List.getElem?_concat_length, hlocal, ?_⟩
  intro d
  constructor
  · intro h
    rw [Ledger.descriptor?, hempty] at h
    cases h
  · rintro ⟨o, hmem⟩
    exact absurd (hs _ o d _ hmem) (Nat.lt_irrefl _)

/-! ## Signatures -/

/-- The signature on this account comes from this library: the task has layers of this library
alone, or the engine is asked for a derived task. -/
def Ordinary (s : Session) : Origin → Prop
  | .task id => ∀ x, s.declared? id = some x → x.BuiltIn
  | _ => True

theorem Describes.signature (h : s.Describes o d) (ho : s.Ordinary o) :
    ∃ a, s.definition? o = some a ∧ d.canonicalSignature = a.signature := by
  cases o with
  | task id =>
    obtain ⟨x, r, hx, hr, rfl⟩ := h
    refine ⟨_, congrArg (Option.map _) hx, ?_⟩
    exact (ho x hx).canonicalSignature (Declaration.canonicalSignature?_of_describe hr)
  | derived id index param =>
    obtain ⟨x, hx, rfl⟩ := h
    exact ⟨_, congrArg (Option.map _) hx, rfl⟩
  | other => exact h.elim

theorem performAll_holdsTaken {before after : List Command} {e : Engine} (hlocal : e.IsLocal)
    (hempty : e.ledger.registrations = []) :
    (({} : Session).performAll (before ++ .addEngine e :: after)).fleet.HoldsTaken
      (({} : Session).performAll before).fleet.engines.length := by
  rw [performAll_append]
  refine Reaches.holdsTaken (Reaches.refl.performAll after) ?_
  exact addEngine_holdsTaken (Reaches.refl.performAll before).known hlocal hempty

/-- **Signatures tell definitions apart by their pieces.** The descriptors of a run have the
signatures of their definitions. If the names of two definitions have different pieces, the
signatures differ, and a local engine that takes both descriptors holds each under its own. -/
theorem performAll_signatures {before after : List Command} {e : Engine} (hlocal : e.IsLocal)
    (hempty : e.ledger.registrations = []) :
    let s := ({} : Session).performAll (before ++ .addEngine e :: after)
    let i := (({} : Session).performAll before).fleet.engines.length
    (∀ a b : Definition, a.signature = b.signature ↔ a.path = b.path) ∧
    (∀ a b : Definition, a.Plain → b.Plain →
      (a.signature = b.signature ↔ a = b ∨ a.Shadows b ∨ b.Shadows a)) ∧
    (∀ engine o d answer, .register engine o d answer ∈ s.fleet.history → s.Ordinary o →
      ∃ a, s.definition? o = some a ∧ d.canonicalSignature = a.signature) ∧
    ∃ e', s.engine? i = some e' ∧ ∀ o o' d d' a b,
      .register i o d (.ok ()) ∈ s.fleet.history → .register i o' d' (.ok ()) ∈ s.fleet.history →
      s.Ordinary o → s.Ordinary o' → s.definition? o = some a → s.definition? o' = some b →
      a.path ≠ b.path → d.canonicalSignature ≠ d'.canonicalSignature ∧
        e'.ledger.descriptor? a.signature = some d ∧
        e'.ledger.descriptor? b.signature = some d' := by
  intro s i
  have hsignature : ∀ engine o d answer, .register engine o d answer ∈ s.fleet.history →
      s.Ordinary o → ∃ a, s.definition? o = some a ∧ d.canonicalSignature = a.signature := by
    intro engine o d answer hmem ho
    exact ((Reaches.refl.performAll _).describes engine o d answer hmem).signature ho
  obtain ⟨e', he', -, htaken⟩ : s.fleet.HoldsTaken i := performAll_holdsTaken hlocal hempty
  have hheld : ∀ o d a, .register i o d (.ok ()) ∈ s.fleet.history → s.Ordinary o →
      s.definition? o = some a → d.canonicalSignature = a.signature ∧
        e'.ledger.descriptor? a.signature = some d := by
    intro o d a hmem ho ha
    obtain ⟨a', ha', hd⟩ := hsignature i o d _ hmem ho
    cases ha.symm.trans ha'
    exact ⟨hd, hd ▸ (htaken d).2 ⟨o, hmem⟩⟩
  refine ⟨Definition.signature_eq_iff, fun _ _ => Definition.signature_eq_iff_of_plain, hsignature,
    e', he', ?_⟩
  intro o o' d d' a b hmem hmem' ho ho' ha hb hpath
  obtain ⟨hd, hheldFirst⟩ := hheld o d a hmem ho ha
  obtain ⟨hd', hheldSecond⟩ := hheld o' d' b hmem' ho' hb
  refine ⟨?_, hheldFirst, hheldSecond⟩
  rw [hd, hd']
  exact fun heq => hpath ((a.signature_eq_iff b).1 heq)

/-- A task whose argument goes through a derived task. -/
def cut : Declaration where
  info := ⟨"demo", "cut", { params := [{ name := "x" }] }⟩
  layers := [.transformation [{ param := "x", function := fun v _ => .ok v }], .task {}]
  body _ := .done (.ok .null)

/-- A task that is called as that derived task. -/
def cutShadow : Declaration where
  info := ⟨"demo.cut", "x_transform", {}⟩
  layers := [.task {}]
  body _ := .done (.ok .null)

theorem cut_builtIn : cut.BuiltIn := ⟨rfl, by simp [cut, Layer.isBuiltIn]⟩

/-- Both are called. -/
def shadowed : List Command :=
  [.addEngine {}, .declare "cut" cut, .declare "shadow" cutShadow, .startSubmitter 0,
    .call 0 (.ofPositional [.null]) 1, .call 1 {} 1]

/-- What the engine takes: the descriptor of the derived task, and an equal one. -/
theorem shadowed_history : ∃ ran submitted ran' submitted' submitted'' d,
    (({} : Session).performAll shadowed).fleet.history =
      [ran, submitted, .register 0 (.task 1) (Derived.descriptor cut.info "x") (.ok ()), ran',
        submitted', submitted'',
        .register 0 (.derived 0 0 "x") (Derived.descriptor cut.info "x") (.ok ()),
        .register 0 (.task 0) d (.ok ())] :=
  ⟨_, _, _, _, _, _, rfl⟩

/-- The engine holds the task and its derived task. -/
theorem performAll_signatures_cut :
    let s := ({} : Session).performAll shadowed
    ∃ e, s.engine? 0 = some e ∧ (∃ d, e.ledger.descriptor? "demo.cut" = some d) ∧
      e.ledger.descriptor? "demo.cut.x_transform" = some (Derived.descriptor cut.info "x") := by
  intro s
  obtain ⟨-, -, -, e, he, hheld⟩ :=
    @performAll_signatures [] shadowed.tail {} ⟨rfl, rfl, rfl⟩ rfl
  obtain ⟨_, _, _, _, _, d, hhistory⟩ := shadowed_history
  have hordinary : s.Ordinary (.task 0) := by
    intro x hx
    cases hx
    exact cut_builtIn
  have htask : .register 0 (.task 0) d (.ok ()) ∈ s.fleet.history := by simp [s, hhistory]
  have hx : .register 0 (.derived 0 0 "x") (Derived.descriptor cut.info "x") (.ok ()) ∈
      s.fleet.history := by simp [s, hhistory]
  obtain ⟨-, hcut, hderived⟩ := hheld _ _ _ _ (.task "demo" "cut") (.derived "demo" "cut" "x")
    htask hx hordinary trivial rfl rfl (by decide)
  exact ⟨e, he, ⟨d, hcut⟩, hderived⟩

/-- **Different definitions can have one signature**, and then a local engine takes the one for the
other. -/
theorem not_signatures_apart :
    ¬ ∀ commands : List Command,
      (∀ name x, .declare name x ∈ commands → x.BuiltIn) →
      let s := ({} : Session).performAll commands
      ∀ engine engine' o o' d d' a b, .register engine o d (.ok ()) ∈ s.fleet.history →
        .register engine' o' d' (.ok ()) ∈ s.fleet.history →
        s.definition? o = some a → s.definition? o' = some b → a ≠ b →
        d.canonicalSignature ≠ d'.canonicalSignature := by
  intro h
  obtain ⟨_, _, _, _, _, _, hhistory⟩ := shadowed_history
  have hbuiltIn : ∀ name x, .declare name x ∈ shadowed → x.BuiltIn := by
    intro name x hmem
    obtain ⟨-, rfl⟩ | ⟨-, rfl⟩ : name = "cut" ∧ x = cut ∨ name = "shadow" ∧ x = cutShadow := by
      simpa [shadowed] using hmem
    · exact cut_builtIn
    · exact ⟨rfl, by simp [cutShadow, Layer.isBuiltIn]⟩
  refine h shadowed hbuiltIn 0 0 (.task 1) (.derived 0 0 "x")
    (Derived.descriptor cut.info "x") (Derived.descriptor cut.info "x")
    (.task "demo.cut" "x_transform") (.derived "demo" "cut" "x") ?_ ?_ rfl rfl (by decide) rfl
  · simp [hhistory]
  · simp [hhistory]

end Session
end TaskStack
