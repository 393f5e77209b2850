import TaskStack.Proofs.Session.Course

/-!
# What a layer has done before it finds that it cannot go on

A transformation layer in a submitter fails by its own account when it has nothing to apply, or when
it comes to a transformation of a parameter that the task does not declare. It looks at one target
at a time, and has dealt with the transformations before it by then: applied their functions, or
handed their values to the engine.

**Theorem (`beforeCall_unresolved`).** When a layer fails so, all transformations before the one
that it cannot resolve have yielded their values, the engine was handed the values of exactly those
of them that are none of the workflow, and nothing after it was looked at. So a layer that fails so
has done nothing exactly when it has nothing to apply or cannot resolve the very first target.

* `Passage.runs`: whether the function of a transformation is applied.
* `Fleet.handedIn`: what engines were handed to run.
-/

namespace TaskStack

/-! ## What engines are handed to run -/

/-- What an engine is handed to run, and on whose account. -/
def Event.handedIn? : Event → Option (Origin × Args)
  | .submit _ o _ _ args => some (o, args)
  | _ => none

namespace Fleet

/-- What engines were handed to run, the latest first. -/
def handedIn (f : Fleet) : List (Origin × Args) := f.history.filterMap Event.handedIn?

theorem handedIn_register (f : Fleet) (engine : EngineId) (o : Origin) (d : TaskDescriptor) :
    (f.register engine o d).2.handedIn = f.handedIn := by
  obtain ⟨-, h⟩ | ⟨answer, engines, h⟩ := f.register_cases engine o d
  · rw [h]
  · rw [h]
    rfl

/-- An engine that gives a value was handed something to run. -/
theorem handedIn_submit {f : Fleet} {engine : EngineId} {o : Origin} {d : TaskDescriptor}
    {schema : Schema} {args : Args} {t : Transform} {v w : Value}
    (h : (f.submit engine o d schema args).1.outcome t v = .ok w) :
    (f.submit engine o d schema args).2.handedIn = (o, args) :: f.handedIn := by
  obtain ⟨-, hnone⟩ | ⟨admission, engines, hsome⟩ := f.submit_cases engine o d schema args
  · rw [hnone] at h
    cases h
  · rw [hsome]
    rfl

end Fleet

namespace Passage

variable {p : Passage} {t : Transform} {ts specs : List Transform} {v w : Value} {x y : Passing}
  {step : Step} {steps : List Step} {answer : Except Fault Unit × Passing} {e : DefinitionError}

/-! ## What is done at a step -/

/-- The function of a transformation is applied: in the process, or as the body of a submission that
the engine does not settle. -/
def runs (p : Passage) (step : Step) : Bool :=
  if step.transform.workflow then true
  else match p.scope.engine with
    | none => false
    | some engine =>
      match p.ensureDerived engine step.transform.param step.before with
      | (.error _, _) => false
      | (.ok d, y) =>
        match (y.fleet.submit engine (p.origin step.transform.param) d Derived.schema
          (Args.ofPositional [step.given])).1 with
        | .run => true
        | .settled _ => false

/-- What a function that is applied makes of the value is what becomes of the step. -/
theorem outcome_of_runs (h : p.runs step = true) :
    p.outcome step = (step.transform.apply step.given).mapError Abort.fault := by
  unfold runs at h
  unfold outcome transform
  split at h
  · next hw => rw [if_pos hw]
  · next hw =>
    rw [if_neg hw]
    cases he : p.scope.engine with
    | none => simp [he] at h
    | some engine =>
      simp only [he] at h
      rcases hknown : p.ensureDerived engine step.transform.param step.before with ⟨fault | d, y⟩
      · simp [hknown] at h
      · rw [submitDerived_of_ok he hknown]
        simp only [hknown] at h
        split at h
        · next hrun => simp only [handIn, hrun, Admission.outcome]
        · cases h

/-- A function that is not applied does not matter. -/
theorem transform_of_not_runs (h : p.runs ⟨t, v, x⟩ = false) (f : TransformFunction) :
    p.transform { t with function := f } v x = p.transform t v x := by
  unfold runs at h
  unfold transform submitDerived
  split at h
  · cases h
  · next hw =>
    rw [if_neg hw, if_neg hw]
    cases he : p.scope.engine with
    | none => rfl
    | some engine =>
      simp only [he] at h
      dsimp only
      generalize p.ensureDerived engine t.param x = known at h ⊢
      obtain ⟨fault | d, y⟩ := known
      · rfl
      · dsimp only at h ⊢
        split at h
        · cases h
        · next result hsettled => simp only [hsettled]

/-- What the engine is handed at a step, if it is none of the workflow. -/
def handedIn? (p : Passage) (step : Step) : Option (Origin × Args) :=
  if step.transform.workflow then none
  else some (p.origin step.transform.param, Args.ofPositional [step.given])

theorem handedIn_transform (h : p.transform t v x = (.ok w, y)) :
    y.fleet.handedIn = (p.handedIn? ⟨t, v, x⟩).toList ++ x.fleet.handedIn := by
  have hanswers := p.transform_answers t v x
  rw [h] at hanswers
  generalize hr : ((.ok w, y) : Except Fault Value × Passing) = r at hanswers
  cases hanswers with
  | inProcess hw =>
    obtain ⟨-, rfl⟩ := Prod.mk.inj hr
    simp [handedIn?, hw]
  | noEngine | poisoned | refused => cases hr
  | remembered hasks =>
    obtain ⟨hw, rfl⟩ := Prod.mk.inj hr
    rw [Fleet.handedIn_submit hw.symm]
    simp [handedIn?, hasks.workflow]
  | taken hasks =>
    obtain ⟨hw, rfl⟩ := Prod.mk.inj hr
    rw [Fleet.handedIn_submit hw.symm]
    simp [handedIn?, hasks.workflow, handOver, Fleet.handedIn_register]

/-! ## What is done along the way -/

namespace Course

/-- A course that ends in a definition error which no engine answered ends before a target that the
task does not declare, and every step before it has yielded a value. -/
theorem unresolved (h : p.Course ts x steps answer)
    (herror : answer.1 = .error (.error (.definition e)))
    (hown : ∀ step ∈ steps, p.outcome step ≠ .error (.error (.definition e))) :
    (∃ t later, ts = steps.map (·.transform) ++ t :: later ∧
        p.info.schema.contains t.param = false ∧
        e = .unknownParameter t.param p.info.qualifiedName) ∧
      ∀ step ∈ steps, ∃ w, p.outcome step = .ok w := by
  induction h with
  | done => cases herror
  | @unknown t rest x hlocate =>
    refine ⟨⟨t, rest, rfl, ?_, ?_⟩, nofun⟩
    · rw [← Bool.not_eq_true]
      intro hcontains
      obtain ⟨site, v, hfound⟩ := Args.exists_locate (a := x.args) hcontains
      cases hlocate.symm.trans hfound
    · cases herror
      rfl
  | @stop t _ x _ _ v _ _ ht =>
    cases herror
    refine absurd ?_ (hown ⟨t, v, x⟩ List.mem_cons_self)
    rw [outcome, ht]
  | @step t _ x _ _ v w _ _ _ ht _ ih =>
    obtain ⟨⟨u, later, rfl, hu⟩, hok⟩ :=
      ih herror fun step hstep => hown step (List.mem_cons_of_mem _ hstep)
    refine ⟨⟨u, later, rfl, hu⟩, List.forall_mem_cons.2 ⟨⟨w, ?_⟩, hok⟩⟩
    rw [outcome, ht]

/-- Steps that all yield a value are the whole of what was done. -/
theorem reached_end (h : p.Course ts x steps answer)
    (hsteps : ∀ step ∈ steps, ∃ w, p.outcome step = .ok w) :
    p.substitute (steps.map (·.transform)) x = (.ok (), answer.2) := by
  induction h with
  | done => rfl
  | unknown _ => rfl
  | @stop t _ x _ _ v _ _ ht =>
    obtain ⟨w, hw⟩ := hsteps _ List.mem_cons_self
    rw [outcome, ht] at hw
    cases hw
  | step hlocate ht _ ih =>
    have hlater := ih fun step hstep => hsteps step (List.mem_cons_of_mem _ hstep)
    simp only [List.map_cons, substitute, hlocate, ht, hlater]

/-- Steps that all yield a value hand in what is not of the workflow, one after another. -/
theorem handedIn (h : p.Course ts x steps answer)
    (hsteps : ∀ step ∈ steps, ∃ w, p.outcome step = .ok w) :
    answer.2.fleet.handedIn = (steps.filterMap p.handedIn?).reverse ++ x.fleet.handedIn := by
  induction h with
  | done => rfl
  | unknown _ => rfl
  | @stop t _ x _ _ v _ _ ht =>
    obtain ⟨w, hw⟩ := hsteps _ List.mem_cons_self
    rw [outcome, ht] at hw
    cases hw
  | @step t _ x _ _ v _ _ _ _ ht _ ih =>
    rw [ih fun step hstep => hsteps step (List.mem_cons_of_mem _ hstep), handedIn_transform ht]
    cases hnone : p.handedIn? ⟨t, v, x⟩ <;> simp [hnone]

end Course

/-! ## A layer that fails by its own account -/

/-- What a layer has done that has nothing to apply or cannot resolve a target: every step before it
has yielded its value, and what is none of the workflow was handed to the engine. -/
structure Unresolved (p : Passage) (ts : List Transform) (x : Passing) (e : DefinitionError)
    (steps : List Step) (after : Passing) : Prop where
  cause : (ts = [] ∧ steps = [] ∧ e = .missingTransform p.info.qualifiedName) ∨
    ∃ t later, ts = steps.map (·.transform) ++ t :: later ∧
      p.info.schema.contains t.param = false ∧ e = .unknownParameter t.param p.info.qualifiedName
  resolved : ∀ step ∈ steps, p.info.schema.contains step.transform.param = true
  yielded : ∀ step ∈ steps, ∃ w, p.outcome step = .ok w
  reached : p.substitute (steps.map (·.transform)) x = (.ok (), after)
  handedIn : after.fleet.handedIn = (steps.filterMap p.handedIn?).reverse ++ x.fleet.handedIn

/-- The layer has left the engines alone and has applied no function. -/
def Idle (p : Passage) (x : Passing) (steps : List Step) (after : Passing) : Prop :=
  after.fleet.history = x.fleet.history ∧ ∀ step ∈ steps, p.runs step = false

namespace Unresolved

/-- Whatever comes before the target that is not resolved is applied or handed in. -/
theorem idle_iff (h : p.Unresolved ts x e steps y) : p.Idle x steps y ↔ steps = [] := by
  constructor
  · rintro ⟨hhistory, hruns⟩
    have hsame : y.fleet.handedIn = x.fleet.handedIn :=
      congrArg (List.filterMap Event.handedIn?) hhistory
    have hnone : steps.filterMap p.handedIn? = [] := by simpa [hsame] using h.handedIn
    refine List.eq_nil_iff_forall_not_mem.2 fun step hstep => ?_
    have hw : step.transform.workflow = true := by
      have := List.filterMap_eq_nil_iff.1 hnone step hstep
      simpa [handedIn?] using this
    have hrun := hruns step hstep
    rw [runs, if_pos hw] at hrun
    cases hrun
  · rintro rfl
    have hreached : ((.ok (), x) : Except Fault Unit × Passing) = (.ok (), y) := h.reached
    cases hreached
    exact ⟨rfl, nofun⟩

/-- Nothing comes before it exactly when it is the first, or there is nothing to apply. -/
theorem steps_eq_nil_iff (h : p.Unresolved ts x e steps y) :
    steps = [] ↔ ∀ t ∈ ts.head?, p.info.schema.contains t.param = false := by
  obtain ⟨rfl, rfl, -⟩ | ⟨t, later, hts, ht, -⟩ := h.cause
  · simp
  · cases steps with
    | nil => simp [hts, ht]
    | cons first steps => simp [hts, h.resolved first List.mem_cons_self]

end Unresolved

/-- **What a layer has done when it fails by its own account.** It has dealt with every
transformation before the one that it cannot resolve; it has done nothing exactly when that one is
the first, or when there is nothing to apply. -/
theorem beforeCall_unresolved (hrole : p.scope.role = .submitter)
    (herror : (p.beforeCall specs x).1 = .error (.error (.definition e)))
    (hown : ∀ step ∈ p.course specs x, p.outcome step ≠ .error (.error (.definition e))) :
    let ts := x.args.chosen specs
    let begun : Passing := { x with args := { x.args with transforms := [] } }
    let after := (p.beforeCall specs x).2
    p.Unresolved ts begun e (p.course specs x) after ∧
      (p.Idle begun (p.course specs x) after ↔
        ∀ t ∈ ts.head?, p.info.schema.contains t.param = false) := by
  intro ts begun after
  obtain ⟨hstate, hanswer⟩ := beforeCall_eq_substitute hrole specs x
  have hcourse := p.substitute_course ts begun
  have hcause : ((ts = [] ∧ p.course specs x = [] ∧
        e = .missingTransform p.info.qualifiedName) ∨
      ∃ t later, ts = (p.course specs x).map (·.transform) ++ t :: later ∧
        p.info.schema.contains t.param = false ∧
        e = .unknownParameter t.param p.info.qualifiedName) ∧
      ∀ step ∈ p.course specs x, ∃ w, p.outcome step = .ok w := by
    by_cases hnil : ts = []
    · have hsteps : p.course specs x = [] := by
        rw [course, show x.args.chosen specs = [] from hnil]
        rfl
      have hmissing : p.beforeCall specs x =
          (.error (.error (.definition (.missingTransform p.info.qualifiedName))), begun) := by
        rw [beforeCall_of_submitter hrole]
        exact if_pos (List.isEmpty_iff.2 hnil)
      rw [hmissing] at herror
      cases herror
      exact ⟨.inl ⟨hnil, hsteps, rfl⟩, by simp [hsteps]⟩
    · obtain ⟨hunknown, hyielded⟩ := hcourse.unresolved ((hanswer hnil).symm.trans herror) hown
      exact ⟨.inr hunknown, hyielded⟩
  have hunresolved : p.Unresolved ts begun e (p.course specs x) after := {
    cause := hcause.1
    resolved := by
      intro step hstep
      obtain ⟨site, hlocate⟩ := hcourse.given step hstep
      obtain ⟨index, hindex, -⟩ := Args.locate_eq_some_iff.1 hlocate
      simp [Schema.contains, hindex]
    yielded := hcause.2
    reached := (hcourse.reached_end hcause.2).trans (congrArg _ hstate.symm)
    handedIn := (congrArg _ (congrArg _ hstate)).trans (hcourse.handedIn hcause.2) }
  exact ⟨hunresolved, hunresolved.idle_iff.trans hunresolved.steps_eq_nil_iff⟩

/-- A layer that cannot resolve its third target. By then it has applied the function of the first
and handed what that yields to the engine. -/
theorem beforeCall_unresolved_third :
    let info : TaskInfo := ⟨"demo", "scale", { params := [{ name := "x" }] }⟩
    let specs : List Transform := [⟨"x", fun _ _ => .ok (.bool true), ∅, true⟩,
      ⟨"x", fun v _ => .ok v, ∅, false⟩, ⟨"y", fun v _ => .ok v, ∅, false⟩]
    let p : Passage := ⟨info, ⟨.submitter, some 0⟩, 0, 0⟩
    let engine : Engine := { registerScript := [.answer fun _ => .ok ()] }
    let x : Passing := ⟨Args.ofPositional [.null], {}, ⟨[engine], []⟩⟩
    let after := (p.beforeCall specs x).2
    p.Unresolved specs x (.unknownParameter "y" "demo.scale") (p.course specs x) after ∧
      ¬ p.Idle x (p.course specs x) after ∧
      after.fleet.handedIn = [(.derived 0 0 "x", Args.ofPositional [.bool true])] := by
  intro info specs p engine x after
  have herror : (p.beforeCall specs x).1 =
      .error (.error (.definition (.unknownParameter "y" "demo.scale"))) := rfl
  have hown : ∀ step ∈ p.course specs x,
      p.outcome step ≠ .error (.error (.definition (.unknownParameter "y" "demo.scale"))) := by
    have hcourse : p.course specs x = [⟨specs[0], .null, x⟩, ⟨specs[1], .bool true,
        { x with args := Args.ofPositional [.bool true] }⟩] := rfl
    simp only [hcourse, List.forall_mem_cons]
    exact ⟨nofun, nofun, nofun⟩
  obtain ⟨hunresolved, hidle⟩ := beforeCall_unresolved rfl herror hown
  refine ⟨hunresolved, fun h => ?_, rfl⟩
  have hfirst := hidle.1 h specs[0] rfl
  cases hfirst

/-- A definition error of a layer does not mean that no work was done. -/
theorem not_idle_of_definition : ¬ ∀ (p : Passage) (specs : List Transform) (x : Passing)
    (e : DefinitionError), p.scope.role = .submitter →
    (p.beforeCall specs x).1 = .error (.error (.definition e)) →
    p.Idle x (p.course specs x) (p.beforeCall specs x).2 := by
  intro h
  let same : TransformFunction := fun v _ => .ok v
  let p : Passage :=
    ⟨⟨"demo", "scale", { params := [{ name := "x" }] }⟩, ⟨.submitter, some 0⟩, 0, 0⟩
  let engine : Engine := { registerScript := [.answer fun _ => .ok ()] }
  have hidle := h p [⟨"x", same, ∅, false⟩, ⟨"y", same, ∅, false⟩]
    ⟨Args.ofPositional [.int 5], {}, ⟨[engine], []⟩⟩ (.unknownParameter "y" "demo.scale") rfl rfl
  exact absurd (congrArg List.length hidle.1) (by decide)

end Passage
end TaskStack
