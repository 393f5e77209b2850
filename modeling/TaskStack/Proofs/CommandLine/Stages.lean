import TaskStack.CommandLine.Demonstration
import TaskStack.Proofs.Catalogue.Tasks
import TaskStack.Proofs.Engine.Wired
import TaskStack.Proofs.Session.Course
import TaskStack.Proofs.Session.Moves

/-!
# What a demonstration run hands over

A submitter that runs the demonstration calls the tasks of the catalogue in their order, and each
call hands over its descriptor before anything else. The call of `scale` hands over the descriptor
of its derived task next. A call that fails ends the run. So whatever the engine answers and
wherever the run ends, it has handed over a beginning of one list: the descriptors of the tasks, and
then that of the derived task.

**State.** A run is at a stage (`Stage`): so many descriptors of the list were sent, and these are
the ones that the session remembers. A call that succeeds leads to the next stage, and a call at the
last stage sends nothing.

**Theorem (`Stage.rounds`).** A run that begins at a stage has sent a beginning of the list when it
ends, and all of it if no call has failed.

* `Advances`: a step that leads to a stage, or fails.
* `Stage.present`, `Stage.square`: the two steps that send something.
-/

namespace TaskStack

/-! ## What a layer hands over -/

namespace Passage

variable {p : Passage} {t : Transform} {engine : EngineId} {x : Passing}

theorem sent_handIn (d : TaskDescriptor) (v : Value) :
    (p.handIn engine t d v x).2.fleet.sent engine = x.fleet.sent engine :=
  Fleet.sent_submit ..

theorem sent_handOver (param : String) :
    (p.handOver engine param x).2.fleet.sent engine =
        x.fleet.sent engine ++ [Derived.descriptor p.info param] ∨
      (p.handOver engine param x).2.fleet.sent engine = x.fleet.sent engine ∧
        (p.handOver engine param x).1 ≠ .ok () :=
  x.fleet.sent_register engine _ _

/-- A step in a layer that hands over the derived descriptor of a parameter, unless it is
remembered. Then it is remembered, or the step fails. -/
structure Derives (p : Passage) (engine : EngineId) (param : String) (x : Passing) {α : Type}
    (answer : Except Fault α × Passing) : Prop where
  remembered : (x.derived.descriptors.get? param).isSome →
    answer.2.derived = x.derived ∧ answer.2.fleet.sent engine = x.fleet.sent engine
  new : x.derived.descriptors.get? param = none →
    answer.2.fleet.sent engine = x.fleet.sent engine ++ [Derived.descriptor p.info param] ∧
        (answer.2.derived.descriptors.get? param).isSome ∨
      ∃ fault, answer.1 = .error fault ∧
        (answer.2.fleet.sent engine = x.fleet.sent engine ∨
          answer.2.fleet.sent engine =
            x.fleet.sent engine ++ [Derived.descriptor p.info param])

theorem derives_transform (ht : t.workflow = false) (he : p.scope.engine = some engine)
    (v : Value) : p.Derives engine t.param x (p.transform t v x) := by
  have hanswers := p.transform_answers t v x
  generalize p.transform t v x = answer at hanswers ⊢
  cases hanswers with
  | inProcess h => cases ht.symm.trans h
  | noEngine _ he' => cases he.symm.trans he'
  | poisoned _ _ _ => exact ⟨fun _ => ⟨rfl, rfl⟩, fun _ => .inr ⟨_, rfl, .inl rfl⟩⟩
  | remembered hasks hknown =>
    cases he.symm.trans hasks.engine
    exact ⟨fun _ => ⟨rfl, sent_handIn ..⟩, fun hnone => by cases hknown.symm.trans hnone⟩
  | refused hasks hnone ha =>
    cases he.symm.trans hasks.engine
    refine ⟨fun hsome => by simp [hnone] at hsome, fun _ => .inr ⟨_, rfl, ?_⟩⟩
    exact (sent_handOver t.param).symm.imp_left And.left
  | taken hasks hnone ha =>
    cases he.symm.trans hasks.engine
    have hsent := (sent_handOver (p := p) t.param).resolve_right fun h => h.2 ha
    refine ⟨fun hsome => by simp [hnone] at hsome, fun _ => .inl ⟨?_, ?_⟩⟩
    · exact (sent_handIn ..).trans hsent
    · show ((x.derived.after _ _ (p.handOver engine t.param x).1).descriptors.get? _).isSome
      rw [ha]
      simp [Derived.after, Dict.get?_insert_self]

/-- A layer with a single transformation, for a call that brings none along. -/
theorem derives_beforeCall (ht : t.workflow = false) (hrole : p.scope.role = .submitter)
    (he : p.scope.engine = some engine) (hx : x.args.transforms = []) :
    p.Derives engine t.param x (p.beforeCall [t] x) := by
  have hsame : { x with args := { x.args with transforms := [] } } = x := by rw [← hx]
  rw [beforeCall_of_submitter hrole]
  simp only [hx, List.isEmpty_nil, if_true, List.isEmpty_cons, Bool.false_eq_true, if_false, hsame]
  rw [substitute]
  cases x.args.locate p.info.schema t.param with
  | none => exact ⟨fun _ => ⟨rfl, rfl⟩, fun _ => .inr ⟨_, rfl, .inl rfl⟩⟩
  | some found =>
    obtain ⟨site, v⟩ := found
    have hderives := derives_transform (x := x) ht he v
    dsimp only
    generalize p.transform t v x = answer at hderives ⊢
    obtain ⟨fault | w, y⟩ := answer
    · refine ⟨hderives.remembered, fun hnone => (hderives.new hnone).imp_right ?_⟩
      rintro ⟨fault', -, hsent⟩
      exact ⟨fault, rfl, hsent⟩
    · refine ⟨hderives.remembered, fun hnone => .inl ((hderives.new hnone).resolve_right ?_)⟩
      rintro ⟨fault, hfault, -⟩
      cases hfault

end Passage

namespace Session

/-- Layers without transformations leave the session to what is below them. -/
theorem passLayers_of_quiet (s : Session) (id : TaskId) (info : TaskInfo) (scope : Scope)
    (inner : Args → Session → Except Fault Value × Session) {layers : List Layer}
    (hlayers : ∀ l ∈ layers, l.isBuiltIn = true ∧ l.specs? = none) (index : Nat) (a : Args) :
    ∃ b after,
      passLayers id info scope inner index layers a s = ((inner b s).1, after, (inner b s).2) := by
  induction layers generalizing index a with
  | nil => exact ⟨a, a, rfl⟩
  | cons layer rest ih =>
    obtain ⟨⟨hbuiltIn, hspecs⟩, hrest⟩ := List.forall_mem_cons.1 hlayers
    obtain ⟨b, after, hpass⟩ := ih hrest (index + 1) (layer.mark a)
    refine ⟨b, a, ?_⟩
    rw [passLayers_of_ok (beforeLayer_of_specs?_eq_none hbuiltIn hspecs), hpass]

end Session

namespace Catalogue

/-- The descriptors of the catalogue in the order in which a run comes to them: those of the tasks,
and that of the derived task. -/
def descriptors : List TaskDescriptor :=
  tasks.filterMap (fun d =>
    (Declaration.describe d.info d.layers).toOption.map (·.descriptor)) ++
    [Derived.descriptor scale.info squareX.param]

theorem signatures_descriptors : descriptors.map (·.canonicalSignature) =
    ["catalog.increment", "catalog.solve", "catalog.scale", "catalog.scale.x_transform"] := by
  decide +kernel

theorem valid_descriptors : ∀ d ∈ descriptors, d.breach? = none := by
  decide +kernel

/-- The descriptor of a task comes after those of the tasks before it. -/
theorem describe_tasks {i : Nat} (hi : i < tasks.length) : ∃ r,
    Declaration.describe tasks[i].info tasks[i].layers = .ok r ∧
      descriptors.take (i + 1) = descriptors.take i ++ [r.descriptor] := by
  match i, hi with
  | 0, _ => exact ⟨_, rfl, rfl⟩
  | 1, _ => exact ⟨_, rfl, rfl⟩
  | 2, _ => exact ⟨_, rfl, rfl⟩

end Catalogue

namespace CommandLine.Demonstration

open Catalogue

/-! ## Stages -/

/-- The scope of a call in a submitter that has one engine. -/
def submitting : Scope := ⟨.submitter, some 0⟩

/-- A submitter with the catalogue has sent so many of the descriptors, and remembers them. -/
structure Stage (s : Session) (n : Nat) : Prop where
  scope : s.scope = submitting
  names : s.names = (declareAll {}).names
  sent : s.fleet.sent 0 = descriptors.take n
  task : ∀ i (hi : i < tasks.length), ∃ t, s.task? i = some t ∧ t.declaration = tasks[i] ∧
    if i < n then ∃ r, t.registration = .done r else t.registration = .pending
  derived : ∀ t, s.task? 2 = some t →
    ((t.derivedAt 0).descriptors.get? squareX.param).isSome = decide (4 ≤ n)

/-- A step that leads at least to a stage, or fails when a beginning of the descriptors was sent. -/
def Advances {α : Type} (n : Nat) (answer : Except Fault α × Session) : Prop :=
  (∃ m, answer.2.fleet.sent 0 = descriptors.take m) ∧
    ∀ a, answer.1 = .ok a → ∃ m, n ≤ m ∧ Stage answer.2 m

variable {α : Type} {s : Session} {n m i : Nat} {t : Task}

theorem Stage.advances {answer : Except Fault α × Session} (h : Stage answer.2 m) (hn : n ≤ m) :
    Advances n answer :=
  ⟨⟨m, h.sent⟩, fun _ _ => ⟨m, hn, h⟩⟩

theorem advances_error (h : s.fleet.sent 0 = descriptors.take m) (fault : Fault) :
    Advances n ((.error fault, s) : Except Fault α × Session) := ⟨⟨m, h⟩, nofun⟩

theorem Advances.mono {answer : Except Fault α × Session} (h : Advances n answer) (hm : m ≤ n) :
    Advances m answer := by
  refine ⟨h.1, fun a ha => ?_⟩
  obtain ⟨k, hk, hstage⟩ := h.2 a ha
  exact ⟨k, Nat.le_trans hm hk, hstage⟩

/-- How such a step ends. -/
theorem Advances.cases {answer : Except Fault α × Session} (h : Advances n answer) :
    (∃ fault s' m, answer = (.error fault, s') ∧ s'.fleet.sent 0 = descriptors.take m) ∨
      ∃ a s' m, answer = (.ok a, s') ∧ n ≤ m ∧ Stage s' m := by
  obtain ⟨fault | a, s'⟩ := answer
  · obtain ⟨m, hm⟩ := h.1
    exact .inl ⟨fault, s', m, rfl, hm⟩
  · obtain ⟨m, hm, hstage⟩ := h.2 a rfl
    exact .inr ⟨a, s', m, rfl, hm, hstage⟩

theorem Stage.withFleet (h : Stage s n) {fleet : Fleet} (hf : fleet.sent 0 = s.fleet.sent 0) :
    Stage { s with fleet } n :=
  ⟨h.scope, h.names, hf.trans h.sent, h.task, h.derived⟩

/-- A descriptor that was taken leads to the next stage. -/
theorem Stage.handOver (h : Stage s i) (hi : i < tasks.length) (ht : s.task? i = some t)
    (hdecl : t.declaration = tasks[i]) {r : Registered}
    (hanswer : (s.fleet.register 0 (.task i) r.descriptor).1 = .ok ())
    (hsent : (s.handOver 0 i t r).fleet.sent 0 = descriptors.take (i + 1)) :
    Stage (s.handOver 0 i t r) (i + 1) where
  scope := h.scope
  names := h.names
  sent := hsent
  task := by
    intro j hj
    by_cases hij : i = j
    · subst hij
      refine ⟨_, Session.task?_handOver ht 0 r, hdecl, ?_⟩
      rw [if_pos (Nat.lt_succ_self i), hanswer]
      exact ⟨r, rfl⟩
    · obtain ⟨u, hu, hdecl', hreg⟩ := h.task j hj
      refine ⟨u, (Session.task?_setTask_of_ne _ _ hij).trans hu, hdecl', ?_⟩
      have hlt : j < i + 1 ↔ j < i := by omega
      simpa only [hlt] using hreg
  derived := by
    intro u hu
    have hfour : decide (4 ≤ i + 1) = decide (4 ≤ i) := by
      have : i < 3 := hi
      rw [decide_eq_false (by omega), decide_eq_false (by omega)]
    rw [hfour]
    by_cases hij : i = 2
    · subst hij
      cases hu.symm.trans (Session.task?_handOver ht 0 r)
      exact h.derived t ht
    · exact h.derived u ((Session.task?_setTask_of_ne _ _ hij).symm.trans hu)

/-- The hand-over at the beginning of a call sends the next descriptor, or finds it sent. -/
theorem Stage.present (h : Stage s n) (hi : i < tasks.length) (hin : i ≤ n)
    (ht : s.task? i = some t) : Advances (i + 1) (s.ensureRegistered i t submitting) := by
  obtain ⟨u, hu, hdecl, hreg⟩ := h.task i hi
  cases ht.symm.trans hu
  by_cases hlt : i < n
  · rw [if_pos hlt] at hreg
    obtain ⟨r, hr⟩ := hreg
    simp only [Session.ensureRegistered, hr]
    exact h.advances hlt
  · obtain rfl : i = n := Nat.le_antisymm hin (Nat.le_of_not_lt hlt)
    rw [if_neg hlt] at hreg
    obtain ⟨r, hr, hnext⟩ := describe_tasks hi
    rw [← hdecl] at hr
    have hsent := s.fleet.sent_register 0 (.task i) r.descriptor
    rw [h.sent, ← hnext] at hsent
    rw [Session.ensureRegistered_of_pending ht hreg rfl hr]
    cases hanswer : (s.fleet.register 0 (.task i) r.descriptor).1 with
    | error fault =>
      -- whether it was sent depends on the fault; both ways it is a beginning
      obtain hsent | ⟨hsent, -⟩ := hsent
      · exact advances_error hsent fault
      · exact advances_error hsent fault
    | ok u =>
      have hsent := hsent.resolve_right fun hnot => hnot.2 hanswer
      exact (h.handOver hi ht hdecl hanswer hsent).advances (Nat.le_refl _)

/-- Changing what is remembered about the derived tasks of `scale`. -/
theorem Stage.amid (h : Stage s n) (ht : s.task? 2 = some t) (hn : 3 ≤ n) (hm : 3 ≤ m)
    {x : Passing} (hsent : x.fleet.sent 0 = descriptors.take m)
    (hderived : (x.derived.descriptors.get? squareX.param).isSome = decide (4 ≤ m)) :
    Stage (s.amid 2 t 0 x) m where
  scope := h.scope
  names := h.names
  sent := hsent
  task := by
    intro i hi
    have hi3 : i < 3 := hi
    obtain ⟨u, hu, hdecl, hreg⟩ := h.task i hi
    rw [if_pos (Nat.lt_of_lt_of_le hi3 hn)] at hreg
    simp only [if_pos (Nat.lt_of_lt_of_le hi3 hm)]
    by_cases hi2 : 2 = i
    · subst hi2
      cases ht.symm.trans hu
      exact ⟨_, Session.task?_amid ht x, hdecl, hreg⟩
    · exact ⟨u, (Session.task?_setTask_of_ne _ _ hi2).trans hu, hdecl, hreg⟩
  derived := by
    intro u hu
    obtain ⟨t', ht', hdecl, -⟩ := h.task 2 (by decide)
    cases ht.symm.trans ht'
    cases hu.symm.trans (Session.task?_amid ht x)
    rw [Task.derivedAt_setDerived_self]
    · exact hderived
    · rw [hdecl]
      decide

/-- The layer of `scale` sends the descriptor of the derived task, or finds that it was sent. -/
theorem Stage.square (h : Stage s n) (hn : 3 ≤ n) {args : Args} (hargs : args.transforms = []) :
    let answer := s.beforeLayer 2 scale.info submitting 0 (.transformation [squareX]) args
    Advances 4 (answer.1, answer.2.2) := by
  obtain ⟨t, ht, hdecl, -⟩ := h.task 2 (by decide)
  simp only [Session.beforeLayer, ht]
  have hderives := Passage.derives_beforeCall (p := ⟨scale.info, submitting, 2, 0⟩) (t := squareX)
    (x := ⟨args, t.derivedAt 0, s.fleet⟩) rfl rfl rfl hargs
  generalize Passage.beforeCall _ _ _ = answer at hderives ⊢
  obtain ⟨result, y⟩ := answer
  have hknown := h.derived t ht
  by_cases hfour : 4 ≤ n
  · obtain ⟨hderived, hsent⟩ := hderives.remembered (hknown.trans (decide_eq_true hfour))
    have hstage : Stage (s.amid 2 t 0 y) n :=
      h.amid ht hn hn (hsent.trans h.sent) (by rw [hderived]; exact hknown)
    exact hstage.advances hfour
  · -- the other tasks have been called by now, so only the derived task is left
    obtain rfl : n = 3 := by omega
    have hnone : (t.derivedAt 0).descriptors.get? squareX.param = none := by simpa using hknown
    have hnext : s.fleet.sent 0 ++ [Derived.descriptor scale.info squareX.param] =
        descriptors.take 4 := by
      rw [h.sent]
      rfl
    obtain ⟨hsent, hremembered⟩ | ⟨fault, hfault, hsent⟩ := hderives.new hnone
    · have hstage : Stage (s.amid 2 t 0 y) 4 :=
        h.amid ht hn (by decide) (hsent.trans hnext) (hremembered.trans (by decide))
      exact hstage.advances (Nat.le_refl 4)
    · obtain rfl : result = .error fault := hfault
      obtain hsent | hsent := hsent
      · exact advances_error (hsent.trans h.sent) fault
      · exact advances_error (hsent.trans hnext) fault

section Beneath

variable (callTask : String → Args → Session → Except Fault Value × Session) {d : Declaration}
  {f : Bound → Except Abort Value} {args : Args}

/-- The end of the way through the layers sends nothing. -/
theorem Stage.innermost (h : Stage s n) (hd : d.Computes f) (id : TaskId) (x : TaskDescriptor)
    (args : Args) : Advances n (Session.innermost callTask id d submitting (some x) args s) := by
  have hsent : (s.fleet.submit 0 (.task id) x d.info.schema args).2.sent 0 = s.fleet.sent 0 :=
    Fleet.sent_submit ..
  simp only [Session.innermost, submitting]
  generalize s.fleet.submit 0 (.task id) x d.info.schema args = asked at hsent
  obtain ⟨- | result, fleet⟩ := asked
  · simp only [Session.runBody, hd.body, Program.run]
    have hlog : (fleet.log (.body id .submitter)).sent 0 = s.fleet.sent 0 := hsent
    exact (h.withFleet hlog).advances (Nat.le_refl n)
  · exact (h.withFleet hsent).advances (Nat.le_refl n)

/-- The way through layers without transformations sends nothing. -/
theorem Stage.beneath (h : Stage s n) (hd : d.Computes f) (layers : List Layer)
    (hlayers : ∀ l ∈ layers, l.isBuiltIn = true ∧ l.specs? = none) (id : TaskId)
    (x : TaskDescriptor) (index : Nat) (args : Args) :
    let answer := Session.passLayers id d.info submitting
      (Session.innermost callTask id d submitting (some x)) index layers args s
    Advances n (answer.1, answer.2.2) := by
  obtain ⟨b, after, hpass⟩ := s.passLayers_of_quiet id d.info submitting
    (Session.innermost callTask id d submitting (some x)) hlayers index args
  simp only [hpass]
  exact h.innermost callTask hd id x b

/-- The way through the layers of `scale`. -/
theorem Stage.squared (h : Stage s n) (hn : 3 ≤ n) (hargs : args.transforms = [])
    (x : TaskDescriptor) :
    let answer := Session.passLayers 2 scale.info submitting
      (Session.innermost callTask 2 scale submitting (some x)) 0 scale.layers args s
    Advances 4 (answer.1, answer.2.2) := by
  have hsquare := h.square hn hargs
  have hlayers : scale.layers = [.transformation [squareX], .task {}] := rfl
  rw [hlayers]
  generalize hbefore : s.beforeLayer 2 scale.info submitting 0 (.transformation [squareX]) args =
    answer at hsquare
  obtain ⟨fault | ⟨⟩, args', s'⟩ := answer
  · rw [Session.passLayers_of_error hbefore]
    exact ⟨hsquare.1, nofun⟩
  · rw [Session.passLayers_of_ok hbefore]
    obtain ⟨m, hm, hstage⟩ := hsquare.2 () rfl
    exact (hstage.beneath callTask computes_scale [.task {}] (by decide) 2 x 1 _).mono hm

/-- The stage behind a call of a task. -/
def stageAfter (i : TaskId) : Nat := if i = 2 then 4 else i + 1

/-- The way of a call through all layers of its task. -/
theorem Stage.through (h : Stage s n) (hi : i < tasks.length) (hin : i < n)
    (hargs : args.transforms = []) (x : TaskDescriptor) :
    Advances (stageAfter i)
      (Session.callInScope.through callTask i submitting args tasks[i] (some x) s) := by
  match i, hi with
  | 0, _ =>
    exact (h.beneath callTask computes_increment increment.layers (by decide) 0 x 0 args).mono hin
  | 1, _ =>
    exact (h.beneath callTask computes_solve solve.layers (by decide) 1 x 0 args).mono hin
  | 2, _ => exact h.squared callTask hin hargs x

end Beneath

/-! ## Calls -/

/-- A call of a task leads to the stage behind it. -/
theorem Stage.callWithin (h : Stage s n) (hi : i < tasks.length) (hin : i ≤ n) {args : Args}
    (hargs : args.transforms = []) (depth : Nat) :
    Advances (stageAfter i) (Session.callWithin (depth + 1) i args s) := by
  obtain ⟨t, ht, hdecl, -⟩ := h.task i hi
  rw [Session.callWithin, ht, h.scope]
  simp only [Session.callInScope, submitting, hdecl]
  obtain ⟨fault, s', m, hanswer, hsent⟩ | ⟨x, s', m, hanswer, hm, hstage⟩ :=
    (h.present hi hin ht).cases
  · rw [submitting] at hanswer
    simp only [hanswer]
    exact advances_error hsent fault
  · rw [submitting] at hanswer
    simp only [hanswer]
    exact hstage.through _ hi hm hargs x

/-- A call by the name of a task. -/
theorem Stage.callByName (h : Stage s n) (name : String) (args : Args) (hi : i < tasks.length)
    (hin : i ≤ n) (hname : (declareAll {}).names.get? name = some i)
    (hargs : args.transforms = []) : Advances (stageAfter i) (s.callByName name args) := by
  rw [Session.callByName, Session.callNamed, h.names, hname]
  exact h.callWithin hi hin hargs 9999

theorem Stage.callTasks (h : Stage s n) (value : Int64) : Advances 4 (callTasks s value) := by
  unfold Demonstration.callTasks
  obtain ⟨fault, s, m, hanswer, hsent⟩ | ⟨increment, s, m, hanswer, hm, h⟩ :=
    (h.callByName (i := 0) "increment" (Args.ofPositional [.int value]) (by decide)
      (Nat.zero_le n) rfl rfl).cases
  · rw [hanswer]
    exact advances_error hsent fault
  rw [hanswer]
  cases grid value with
  | error abort => exact advances_error h.sent abort.fault
  | ok grid =>
    dsimp only
    obtain ⟨fault, s, m, hanswer, hsent⟩ | ⟨solve, s, m, hanswer, hm, h⟩ :=
      (h.callByName (i := 1) "solve" (Args.ofPositional [grid]) (by decide) hm rfl rfl).cases
    · rw [hanswer]
      exact advances_error hsent fault
    rw [hanswer]
    dsimp only
    obtain ⟨fault, s, m, hanswer, hsent⟩ | ⟨scale, s, m, hanswer, hm, h⟩ :=
      (h.callByName (i := 2) "scale" (({} : Args).setNamed "x" (.int value)) (by decide) hm
        rfl rfl).cases
    · rw [hanswer]
      exact advances_error hsent fault
    rw [hanswer]
    exact h.advances hm

/-- **What a run has sent when it ends** is a beginning of the list, and after rounds without a
fault all of it. -/
theorem Stage.rounds (h : Stage s n) (value : Int64) (numbers : List Nat) :
    ∃ m, (rounds value numbers s).2.fleet.sent 0 = descriptors.take m ∧
      ((rounds value numbers s).1.fault = none → 4 ≤ n ∨ numbers ≠ [] → 4 ≤ m) := by
  induction numbers generalizing s n with
  | nil => exact ⟨n, h.sent, fun _ hn => hn.resolve_right (not_not_intro rfl)⟩
  | cons number rest ih =>
    rw [Demonstration.rounds]
    obtain ⟨fault, s', m, hanswer, hsent⟩ | ⟨answers, s', m, hanswer, hm, hstage⟩ :=
      (h.callTasks value).cases
    · rw [hanswer]
      exact ⟨m, hsent, nofun⟩
    · simp only [hanswer]
      obtain ⟨k, hsent, hk⟩ := ih hstage
      exact ⟨k, hsent, fun hfine _ => hk hfine (.inl hm)⟩

/-- A submitter that is started has one engine, connected to the registry, and has sent nothing. -/
theorem stage_start (c : Connection) : ∃ p, start .submitter c = .ok p ∧ p.engine = some 0 ∧
    p.session.fleet = { engines := [{ connection := some c }] } ∧ Stage p.session 0 := by
  refine ⟨_, rfl, rfl, rfl, rfl, rfl, rfl, ?_, ?_⟩
  · intro i hi
    match i, hi with
    | 0, _ => exact ⟨.new increment, rfl, rfl, rfl⟩
    | 1, _ => exact ⟨.new solve, rfl, rfl, rfl⟩
    | 2, _ => exact ⟨.new scale, rfl, rfl, rfl⟩
  · intro t ht
    cases ht
    rfl

end CommandLine.Demonstration
end TaskStack
