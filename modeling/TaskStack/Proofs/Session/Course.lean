import TaskStack.Proofs.Call.Agree
import TaskStack.Proofs.Call.Substitution
import TaskStack.Proofs.Session.HandOver

/-!
# The course of a call through a layer

In a submitter a transformation layer goes through its transformations one by one, or through those
that the call brought along. Each is given the value that its target has by then, and is answered in
the process or by the engine. What it yields is written where the other value was found, so the next
one finds it there. The first that fails ends the course, and what was written before it stays.

**Theorem (`beforeCall_substitutes`).** After the course every target has the value that its last
transformation yielded, and nothing else has changed.

* `Passage.Answers`: what can become of one transformation.
* `Passage.Course`: what can become of transformations one after another.
-/

namespace TaskStack

/-- The transformations that a call goes through in a layer. Those that it brought along stand in
for those of the layer. -/
def Args.chosen (a : Args) (specs : List Transform) : List Transform :=
  if a.transforms.isEmpty then specs else a.transforms

/-- What a submitted transformation comes to: the answer of the engine, or what its function makes
of the value. -/
def Admission.outcome (t : Transform) (v : Value) : Admission → Except Fault Value
  | .settled result => result
  | .run => (t.apply v).mapError Abort.fault

namespace Passage

variable {p : Passage} {t : Transform} {ts specs : List Transform} {v w : Value} {x y : Passing}
  {fault : Fault}

/-! ## One transformation -/

/-- The engine is handed the descriptor of a derived task. -/
def handOver (p : Passage) (engine : EngineId) (param : String) (x : Passing) :
    Except Fault Unit × Passing :=
  let d := Derived.descriptor p.info param
  let asked := x.fleet.register engine (p.origin param) d
  (asked.1, { x with derived := x.derived.after param d asked.1, fleet := asked.2 })

/-- The engine is handed a value for a derived task. -/
def handIn (p : Passage) (engine : EngineId) (t : Transform) (d : TaskDescriptor) (v : Value)
    (x : Passing) : Except Fault Value × Passing :=
  let asked := x.fleet.submit engine (p.origin t.param) d Derived.schema (Args.ofPositional [v])
  (asked.1.outcome t v, { x with fleet := asked.2 })

/-- A transformation that comes to the engine: it is none of the workflow, there is an engine, and
the layer is not poisoned. -/
structure Asks (p : Passage) (engine : EngineId) (t : Transform) (x : Passing) : Prop where
  workflow : t.workflow = false
  engine : p.scope.engine = some engine
  poisoned : x.derived.poisoned = false

/-- **What can become of a transformation.** It is applied in the process, or fails before it comes
to the engine; or its value is submitted under a descriptor that was handed over before, or that is
now. -/
inductive Answers (p : Passage) (t : Transform) (v : Value) (x : Passing) :
    Except Fault Value × Passing → Prop
  | inProcess (h : t.workflow = true) : p.Answers t v x ((t.apply v).mapError Abort.fault, x)
  | noEngine (h : t.workflow = false) (he : p.scope.engine = none) :
      p.Answers t v x (.error (.error (.handoff .noEngine)), x)
  | poisoned {engine : EngineId} (h : t.workflow = false) (he : p.scope.engine = some engine)
      (hp : x.derived.poisoned = true) :
      p.Answers t v x (.error (.error (.handoff (.poisoned "transformaciones derivadas"))), x)
  | remembered {engine : EngineId} {d : TaskDescriptor} (h : p.Asks engine t x)
      (hd : x.derived.descriptors.get? t.param = some d) :
      p.Answers t v x (p.handIn engine t d v x)
  | refused {engine : EngineId} {fault : Fault} (h : p.Asks engine t x)
      (hd : x.derived.descriptors.get? t.param = none)
      (ha : (p.handOver engine t.param x).1 = .error fault) :
      p.Answers t v x (.error fault, (p.handOver engine t.param x).2)
  | taken {engine : EngineId} (h : p.Asks engine t x)
      (hd : x.derived.descriptors.get? t.param = none)
      (ha : (p.handOver engine t.param x).1 = .ok ()) :
      p.Answers t v x (p.handIn engine t (Derived.descriptor p.info t.param) v
        (p.handOver engine t.param x).2)

theorem submitDerived_of_ok {engine : EngineId} {d : TaskDescriptor}
    (he : p.scope.engine = some engine) (h : p.ensureDerived engine t.param x = (.ok d, y))
    (v : Value) : p.submitDerived t v x = p.handIn engine t d v y := by
  simp only [submitDerived, he, h, handIn]
  cases (y.fleet.submit engine (p.origin t.param) d Derived.schema (Args.ofPositional [v])).1 <;>
    rfl

theorem submitDerived_of_error {engine : EngineId} (he : p.scope.engine = some engine)
    (h : p.ensureDerived engine t.param x = (.error fault, y)) (v : Value) :
    p.submitDerived t v x = (.error fault, y) := by
  simp only [submitDerived, he, h]

theorem transform_answers (p : Passage) (t : Transform) (v : Value) (x : Passing) :
    p.Answers t v x (p.transform t v x) := by
  unfold transform
  cases hw : t.workflow with
  | true => exact .inProcess hw
  | false =>
    rw [if_neg Bool.false_ne_true]
    cases he : p.scope.engine with
    | none =>
      simp only [submitDerived, he]
      exact .noEngine hw he
    | some engine =>
      cases hp : x.derived.poisoned with
      | true =>
        rw [submitDerived_of_error he (if_pos hp)]
        exact .poisoned hw he hp
      | false =>
        have hasks : p.Asks engine t x := ⟨hw, he, hp⟩
        cases hd : x.derived.descriptors.get? t.param with
        | some d =>
          have hknown : p.ensureDerived engine t.param x = (.ok d, x) := by
            rw [ensureDerived, if_neg (by simp [hp]), hd]
          rw [submitDerived_of_ok he hknown]
          exact .remembered hasks hd
        | none =>
          have hnew := ensureDerived_of_new p engine hp hd
          cases ha : (p.handOver engine t.param x).1 with
          | ok u =>
            rw [submitDerived_of_ok he (hnew.trans (Prod.ext (congrArg (Except.map _) ha) rfl))]
            exact .taken hasks hd ha
          | error fault =>
            rw [submitDerived_of_error he (hnew.trans (Prod.ext (congrArg (Except.map _) ha) rfl))]
            exact .refused hasks hd ha

/-- A transformation leaves the arguments to the layer. -/
theorem Answers.args {r : Except Fault Value × Passing} (h : p.Answers t v x r) :
    r.2.args = x.args := by
  cases h <;> rfl

/-! ## Transformations one after another -/

/-- A transformation to which a call comes on its way: the value that its target has by then, and
the state before. -/
structure Step where
  transform : Transform
  given : Value
  before : Passing

/-- What becomes of a step. -/
def outcome (p : Passage) (step : Step) : Except Fault Value :=
  (p.transform step.transform step.given step.before).1

/-- What a step puts in the place of what. -/
def substitution? (p : Passage) (step : Step) : Option Substitution :=
  match p.outcome step with
  | .error _ => none
  | .ok w => some ⟨step.transform.param, step.given, w⟩

/-- The steps of a call through transformations, up to the first that fails. -/
def steps (p : Passage) : List Transform → Passing → List Step
  | [], _ => []
  | t :: rest, x =>
    match x.args.locate p.info.schema t.param with
    | none => []
    | some (site, v) =>
      let later := match p.transform t v x with
        | (.error _, _) => []
        | (.ok w, y) => p.steps rest { y with args := y.args.replace site t.param w }
      ⟨t, v, x⟩ :: later

/-- The steps of a call through a layer. -/
def course (p : Passage) (specs : List Transform) (x : Passing) : List Step :=
  p.steps (x.args.chosen specs) { x with args := { x.args with transforms := [] } }

/-- **What can become of transformations one after another.** -/
inductive Course (p : Passage) :
    List Transform → Passing → List Step → Except Fault Unit × Passing → Prop
  | done {x : Passing} : p.Course [] x [] (.ok (), x)
  | unknown {t : Transform} {rest : List Transform} {x : Passing} :
      x.args.locate p.info.schema t.param = none → p.Course (t :: rest) x []
        (.error (.error (.definition (.unknownParameter t.param p.info.qualifiedName))), x)
  | stop {t : Transform} {rest : List Transform} {x y : Passing} {site : Site} {v : Value}
      {fault : Fault} : x.args.locate p.info.schema t.param = some (site, v) →
      p.transform t v x = (.error fault, y) → p.Course (t :: rest) x [⟨t, v, x⟩] (.error fault, y)
  | step {t : Transform} {rest : List Transform} {x y : Passing} {site : Site} {v w : Value}
      {later : List Step} {answer : Except Fault Unit × Passing} :
      x.args.locate p.info.schema t.param = some (site, v) → p.transform t v x = (.ok w, y) →
      p.Course rest { y with args := y.args.replace site t.param w } later answer →
      p.Course (t :: rest) x (⟨t, v, x⟩ :: later) answer

theorem substitute_course (p : Passage) (ts : List Transform) (x : Passing) :
    p.Course ts x (p.steps ts x) (p.substitute ts x) := by
  induction ts generalizing x with
  | nil => exact .done
  | cons t rest ih =>
    rw [substitute, steps]
    cases hlocate : x.args.locate p.info.schema t.param with
    | none => exact .unknown hlocate
    | some found =>
      obtain ⟨site, v⟩ := found
      dsimp only
      cases ht : p.transform t v x with
      | mk result y =>
        cases result with
        | error fault => exact .stop hlocate ht
        | ok w => exact .step hlocate ht (ih _)

theorem args_of_transform {result : Except Fault Value} (h : p.transform t v x = (result, y)) :
    y.args = x.args :=
  (congrArg (·.2.args) h).symm.trans (p.transform_answers t v x).args

namespace Course

variable {steps : List Step} {answer : Except Fault Unit × Passing}

theorem transforms (h : p.Course ts x steps answer) :
    answer.2.args.transforms = x.args.transforms := by
  induction h with
  | done => rfl
  | unknown _ => rfl
  | stop _ ht => rw [args_of_transform ht]
  | step _ ht _ ih => rw [ih, Args.transforms_replace, args_of_transform ht]

theorem order (h : p.Course ts x steps answer) : steps.map (·.transform) <+: ts := by
  induction h with
  | done => exact List.prefix_rfl
  | unknown _ => exact List.nil_prefix
  | stop _ _ => exact List.cons_prefix_cons.2 ⟨rfl, List.nil_prefix⟩
  | step _ _ _ ih => exact List.cons_prefix_cons.2 ⟨rfl, ih⟩

/-- Every step is given what its target has by then. -/
theorem given (h : p.Course ts x steps answer) : ∀ step ∈ steps, ∃ site,
    step.before.args.locate p.info.schema step.transform.param = some (site, step.given) := by
  induction h with
  | done => simp
  | unknown _ => simp
  | stop hlocate _ => exact List.forall_mem_singleton.2 ⟨_, hlocate⟩
  | step hlocate _ _ ih => exact List.forall_mem_cons.2 ⟨⟨_, hlocate⟩, ih⟩

/-- **The arguments after the course** are those before it with the values that the steps
yielded. -/
theorem substituted (h : p.Course ts x steps answer)
    (hts : ∀ t ∈ ts, Marker.isMarker t.param = false) :
    Substituted p.info.schema (steps.filterMap p.substitution?) x.args answer.2.args := by
  induction h with
  | done => exact .refl ..
  | unknown _ => exact .refl ..
  | @stop t _ x y _ v fault _ ht =>
    have hnone : p.substitution? ⟨t, v, x⟩ = none := by simp [substitution?, outcome, ht]
    rw [List.filterMap_cons_none hnone, args_of_transform ht]
    exact .refl ..
  | @step t _ x y site v w later answer hlocate ht _ ih =>
    have hsome : p.substitution? ⟨t, v, x⟩ = some ⟨t.param, v, w⟩ := by
      simp [substitution?, outcome, ht]
    rw [List.filterMap_cons_some hsome]
    have hlater := ih fun u hu => hts u (List.mem_cons_of_mem t hu)
    dsimp only at hlater
    rw [args_of_transform ht] at hlater
    exact .cons (hts t List.mem_cons_self) hlocate hlater

/-- A course whose steps all yield a value goes to the end. -/
theorem whole (h : p.Course ts x steps answer)
    (hts : ∀ t ∈ ts, p.info.schema.contains t.param = true)
    (hsteps : ∀ step ∈ steps, ∃ w, p.outcome step = .ok w) :
    steps.map (·.transform) = ts ∧ answer.1 = .ok () := by
  induction h with
  | done => exact ⟨rfl, rfl⟩
  | @unknown t _ x hlocate =>
    obtain ⟨site, v, hfound⟩ := Args.exists_locate (a := x.args) (hts t List.mem_cons_self)
    cases hlocate.symm.trans hfound
  | @stop t _ x y _ v fault _ ht =>
    obtain ⟨w, hw⟩ := hsteps _ List.mem_cons_self
    rw [outcome, ht] at hw
    cases hw
  | @step t _ _ _ _ _ _ _ _ _ _ _ ih =>
    obtain ⟨hlater, hanswer⟩ := ih (fun u hu => hts u (List.mem_cons_of_mem t hu))
      fun step hstep => hsteps step (List.mem_cons_of_mem _ hstep)
    exact ⟨congrArg (t :: ·) hlater, hanswer⟩

/-- A step that fails is the last one, and its fault is the answer. -/
theorem stopped (h : p.Course ts x steps answer) {earlier later : List Step} {step : Step}
    (hsteps : steps = earlier ++ step :: later) (hstep : p.outcome step = .error fault) :
    later = [] ∧ answer.1 = .error fault := by
  induction h generalizing earlier with
  | done => simp at hsteps
  | unknown _ => simp at hsteps
  | @stop t _ x y _ v fault' _ ht =>
    cases earlier with
    | nil =>
      cases hsteps
      rw [outcome, ht] at hstep
      cases hstep
      exact ⟨rfl, rfl⟩
    | cons first earlier => simp at hsteps
  | @step t _ x y site v w _ _ _ ht _ ih =>
    cases earlier with
    | nil =>
      cases hsteps
      rw [outcome, ht] at hstep
      cases hstep
    | cons first earlier => exact ih (List.cons.inj hsteps).2

/-- The state before a step is what the transformations before it leave. -/
theorem reached (h : p.Course ts x steps answer) {earlier later : List Step} {step : Step}
    (hsteps : steps = earlier ++ step :: later) :
    p.substitute (earlier.map (·.transform)) x = (.ok (), step.before) := by
  induction h generalizing earlier with
  | done => simp at hsteps
  | unknown _ => simp at hsteps
  | stop _ _ =>
    cases earlier with
    | nil =>
      cases hsteps
      rfl
    | cons first earlier => simp at hsteps
  | step hlocate ht _ ih =>
    cases earlier with
    | nil =>
      cases hsteps
      rfl
    | cons first earlier =>
      obtain ⟨rfl, hlater⟩ := List.cons.inj hsteps
      simp only [List.map_cons, substitute, hlocate, ht, ih hlater]

end Course

/-! ## A layer -/

/-- What holds of a call that has passed through transformations in a layer. Each step is given what
its target has by then and is answered in the process or by the engine; what the steps yield is what
has changed in the arguments; and the answer is that of the step that failed, if one did. -/
structure Passes (p : Passage) (ts : List Transform) (x : Passing) (steps : List Step)
    (answer : Except Fault Unit × Passing) : Prop where
  order : steps.map (·.transform) <+: ts
  given : ∀ step ∈ steps, ∃ site,
    step.before.args.locate p.info.schema step.transform.param = some (site, step.given)
  reached : ∀ earlier step later, steps = earlier ++ step :: later →
    p.substitute (earlier.map (·.transform)) { x with args := { x.args with transforms := [] } } =
      (.ok (), step.before)
  answered : ∀ step ∈ steps, p.Answers step.transform step.given step.before
    (p.transform step.transform step.given step.before)
  substituted :
    Substituted p.info.schema (steps.filterMap p.substitution?) x.args answer.2.args
  whole : (∀ step ∈ steps, ∃ w, p.outcome step = .ok w) →
    (steps.filterMap p.substitution?).map (·.target) = ts.map (·.param) ∧
      (ts ≠ [] → answer.1 = .ok ())
  stopped : ∀ earlier step later fault, steps = earlier ++ step :: later →
    p.outcome step = .error fault → later = [] ∧ answer.1 = .error fault
  usedUp : answer.2.args.transforms = []

/-- Steps that all yield a value put something in the place of every target. -/
theorem target_substitutions {steps : List Step}
    (h : ∀ step ∈ steps, ∃ w, p.outcome step = .ok w) :
    (steps.filterMap p.substitution?).map (·.target) = steps.map (·.transform.param) := by
  induction steps with
  | nil => rfl
  | cons step steps ih =>
    obtain ⟨⟨w, hw⟩, hsteps⟩ := List.forall_mem_cons.1 h
    have hsome : p.substitution? step = some ⟨step.transform.param, step.given, w⟩ := by
      rw [substitution?, hw]
    rw [List.filterMap_cons_some hsome, List.map_cons, List.map_cons, ih hsteps]

/-- A layer in a submitter is its transformations one after another, except that it fails when there
are none. -/
theorem beforeCall_eq_substitute (hrole : p.scope.role = .submitter) (specs : List Transform)
    (x : Passing) :
    let course := p.substitute (x.args.chosen specs)
      { x with args := { x.args with transforms := [] } }
    (p.beforeCall specs x).2 = course.2 ∧
      (x.args.chosen specs ≠ [] → (p.beforeCall specs x).1 = course.1) := by
  rw [beforeCall_of_submitter hrole]
  dsimp only [Args.chosen]
  generalize (if x.args.transforms.isEmpty then specs else x.args.transforms) = ts
  cases ts with
  | nil => exact ⟨rfl, fun h => absurd rfl h⟩
  | cons t rest => exact ⟨rfl, fun _ => rfl⟩

/-- What a layer in a submitter leaves is what the course of the call leaves. -/
theorem beforeCall_course (hrole : p.scope.role = .submitter) (specs : List Transform)
    (x : Passing) :
    ∃ result, p.Course (x.args.chosen specs) { x with args := { x.args with transforms := [] } }
      (p.course specs x) (result, (p.beforeCall specs x).2) := by
  rw [(beforeCall_eq_substitute hrole specs x).1]
  exact ⟨_, p.substitute_course (x.args.chosen specs) _⟩

/-- **A layer substitutes exactly its targets.** -/
theorem beforeCall_substitutes (hrole : p.scope.role = .submitter)
    (hts : ∀ t ∈ x.args.chosen specs,
      p.info.schema.contains t.param = true ∧ Marker.isMarker t.param = false) :
    p.Passes (x.args.chosen specs) x (p.course specs x) (p.beforeCall specs x) := by
  obtain ⟨hstate, hanswer⟩ := beforeCall_eq_substitute hrole specs x
  have hcourse := p.substitute_course (x.args.chosen specs)
    { x with args := { x.args with transforms := [] } }
  exact {
    order := hcourse.order
    given := hcourse.given
    reached := fun _ _ _ hsteps => hcourse.reached hsteps
    answered := fun step _ => transform_answers ..
    substituted := by
      rw [hstate]
      exact (hcourse.substituted fun t ht => (hts t ht).2).bringing
    whole := by
      intro hsteps
      obtain ⟨horder, hok⟩ := hcourse.whole (fun t ht => (hts t ht).1) hsteps
      refine ⟨?_, fun hne => (hanswer hne).trans hok⟩
      rw [target_substitutions hsteps, ← horder, List.map_map]
      rfl
    stopped := by
      intro earlier step later fault hsteps hstep
      obtain ⟨hlater, herror⟩ := hcourse.stopped hsteps hstep
      have hne : x.args.chosen specs ≠ [] := by
        intro hnil
        have horder := hcourse.order
        rw [← course, hsteps, hnil] at horder
        simp at horder
      exact ⟨hlater, (hanswer hne).trans herror⟩
    usedUp := by
      rw [hstate]
      exact hcourse.transforms }

/-- Three transformations of two parameters, one passed by position and one not passed. The first is
applied in the process; the others are answered by the engine. -/
theorem beforeCall_substitutes_echo :
    let info : TaskInfo := ⟨"demo", "echo", { params := [{ name := "x" }, { name := "factor" }] }⟩
    let specs : List Transform := [⟨"x", fun _ _ => .ok (.bool true), ∅, true⟩,
      ⟨"factor", fun v _ => .ok v, ∅, false⟩, ⟨"x", fun v _ => .ok v, ∅, false⟩]
    let engine : Engine :=
      { registerScript := [.answer fun _ => .ok (), .answer fun _ => .ok ()]
        submitScript := [.answer fun _ => .ok (.string "f"), .answer fun _ => .ok (.string "x")] }
    let p : Passage := ⟨info, ⟨.submitter, some 0⟩, 0, 0⟩
    let x : Passing := ⟨Args.ofPositional [.null], {}, ⟨[engine], []⟩⟩
    let answer := p.beforeCall specs x
    p.Passes specs x (p.course specs x) answer ∧
      answer.2.args.positional = [.string "x"] ∧
      answer.2.args.named.get? "factor" = some (.string "f") := by
  intro info specs engine p x answer
  have hts : ∀ t ∈ x.args.chosen specs,
      info.schema.contains t.param = true ∧ Marker.isMarker t.param = false := by
    show ∀ t ∈ specs, _
    simp only [specs, List.forall_mem_cons]
    decide
  have hpasses : p.Passes (x.args.chosen specs) x (p.course specs x) answer :=
    beforeCall_substitutes rfl hts
  exact ⟨hpasses, rfl, rfl⟩

end Passage
end TaskStack
