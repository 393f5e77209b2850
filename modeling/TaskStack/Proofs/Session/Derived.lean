import TaskStack.Proofs.Session.Course
import Mathlib.Data.List.Induction

/-!
# Derived tasks of a layer

A layer remembers a derived descriptor for each parameter, from the moment that an engine takes it,
and only from then on it submits values under it. So the history of its engines tells what it
remembers, whatever its transformations were and whichever engines it met. A refusal leaves no trace
in the layer: the next transformation of that parameter that comes to an engine tries again.

**Theorem (`visits_registersOnce`).** In every sequence of calls through a layer the descriptor of a
parameter is taken once at most. Whatever an engine is asked, a step of one of the calls asks it:
to take a descriptor that was not taken so far, or to run the derived task on the value of its
parameter, under the one descriptor that was taken before.

* `Passage.Tells`: the history tells what is remembered.
* `Answers.leaves`, `Course.leaves`: what a step asks, and its right to do so.
* `visits_grown`: the history of all calls, event by event.
-/

namespace TaskStack

/-- The engine takes a descriptor on an account. -/
def Event.takes (o : Origin) : Event → Bool
  | .register _ o' _ (.ok ()) => o' = o
  | _ => false

/-- A history that grew by events, each with the right to happen after those before it. -/
inductive Grown (may : List Event → Event → Prop) (old : List Event) : List Event → Prop
  | refl : Grown may old old
  | cons {e : Event} {history : List Event} : Grown may old history → may history e →
      Grown may old (e :: history)

namespace Grown

variable {may may' : List Event → Event → Prop} {old history history' : List Event}

theorem trans (h : Grown may old history) (h' : Grown may history history') :
    Grown may old history' := by
  induction h' with
  | refl => exact h
  | cons _ he ih => exact ih.cons he

theorem mono (h : Grown may old history) (hmay : ∀ earlier e, may earlier e → may' earlier e) :
    Grown may' old history := by
  induction h with
  | refl => exact .refl
  | cons _ he ih => exact ih.cons (hmay _ _ he)

/-- Each event of a history had the right to happen. -/
theorem split (h : Grown may [] history) {later earlier : List Event} {e : Event}
    (heq : history = later ++ e :: earlier) : may earlier e := by
  induction h generalizing later with
  | refl => simp at heq
  | cons _ he ih =>
    cases later with
    | nil =>
      cases heq
      exact he
    | cons x later => exact ih (List.cons.inj heq).2

end Grown

namespace Fleet

theorem register_of_lt {f : Fleet} {engine : EngineId} (h : engine < f.engines.length) (o : Origin)
    (d : TaskDescriptor) :
    (f.register engine o d).2.history =
        .register engine o d (f.register engine o d).1 :: f.history ∧
      (f.register engine o d).2.engines.length = f.engines.length := by
  rw [register, List.getElem?_eq_getElem h]
  exact ⟨rfl, List.length_set⟩

theorem submit_of_lt {f : Fleet} {engine : EngineId} (h : engine < f.engines.length) (o : Origin)
    (d : TaskDescriptor) (schema : Schema) (args : Args) :
    (f.submit engine o d schema args).2.history = .submit engine o d schema args :: f.history ∧
      (f.submit engine o d schema args).2.engines.length = f.engines.length := by
  rw [submit, List.getElem?_eq_getElem h]
  exact ⟨rfl, List.length_set⟩

end Fleet

namespace Passage

variable {p : Passage} {t : Transform} {v : Value} {x : Passing} {engine : EngineId}
  {r : Except Fault Value × Passing}

/-! ## What the history tells -/

/-- The descriptor of the derived task of a parameter was taken. -/
def Taken (p : Passage) (param : String) (history : List Event) : Prop :=
  ∃ e ∈ history, e.takes (p.origin param) = true

/-- A hand-over of the layer has panicked. -/
def Panicked (p : Passage) (history : List Event) : Prop :=
  ∃ engine param d text, .register engine (p.origin param) d (.error (.panic text)) ∈ history

/-- The history tells what the layer remembers. -/
structure Tells (p : Passage) (x : Passing) : Prop where
  remembers : ∀ param d, x.derived.descriptors.get? param = some d ↔
    d = Derived.descriptor p.info param ∧ p.Taken param x.fleet.history
  once : ∀ param, x.fleet.history.countP (Event.takes (p.origin param)) ≤ 1
  panicked : x.derived.poisoned = true → p.Panicked x.fleet.history

/-- The engine of the call is one of those of the process. -/
def HasEngine (p : Passage) (x : Passing) : Prop :=
  ∀ engine, p.scope.engine = some engine → engine < x.fleet.engines.length

/-- The question whether an engine takes the descriptor of a derived task, with its answer. -/
def registration (p : Passage) (engine : EngineId) (param : String) (answer : Except Fault Unit) :
    Event :=
  .register engine (p.origin param) (Derived.descriptor p.info param) answer

/-- The submission of a value to a derived task. -/
def submission (p : Passage) (engine : EngineId) (param : String) (v : Value) : Event :=
  .submit engine (p.origin param) (Derived.descriptor p.info param) Derived.schema
    (Args.ofPositional [v])

theorem takes_registration (param param' : String) :
    (p.registration engine param (.ok ())).takes (p.origin param') = true ↔ param = param' := by
  simp [registration, Event.takes, origin]

theorem handOver_of_hasEngine (hx : p.HasEngine x) (he : p.scope.engine = some engine)
    (param : String) :
    (p.handOver engine param x).2.fleet.history =
        p.registration engine param (p.handOver engine param x).1 :: x.fleet.history ∧
      p.HasEngine (p.handOver engine param x).2 := by
  obtain ⟨hhistory, hlength⟩ := x.fleet.register_of_lt (hx engine he) (p.origin param)
    (Derived.descriptor p.info param)
  exact ⟨hhistory, fun engine' he' => hlength.symm ▸ hx engine' he'⟩

theorem handIn_of_hasEngine (hx : p.HasEngine x) (he : p.scope.engine = some engine)
    (t : Transform) (v : Value) :
    (p.handIn engine t (Derived.descriptor p.info t.param) v x).2.fleet.history =
        p.submission engine t.param v :: x.fleet.history ∧
      p.HasEngine (p.handIn engine t (Derived.descriptor p.info t.param) v x).2 := by
  obtain ⟨hhistory, hlength⟩ := x.fleet.submit_of_lt (hx engine he) (p.origin t.param)
    (Derived.descriptor p.info t.param) Derived.schema (Args.ofPositional [v])
  exact ⟨hhistory, fun engine' he' => hlength.symm ▸ hx engine' he'⟩

theorem Tells.not_taken (hx : p.Tells x) {param : String}
    (hd : x.derived.descriptors.get? param = none) : ¬ p.Taken param x.fleet.history := by
  intro htaken
  cases hd.symm.trans ((hx.remembers param _).2 ⟨rfl, htaken⟩)

theorem taken_cons {param : String} {e : Event} {history : List Event} :
    p.Taken param (e :: history) ↔ e.takes (p.origin param) = true ∨ p.Taken param history := by
  simp [Taken]

theorem Panicked.cons {history : List Event} (h : p.Panicked history) (e : Event) :
    p.Panicked (e :: history) := by
  obtain ⟨engine, param, d, text, hmem⟩ := h
  exact ⟨engine, param, d, text, List.mem_cons_of_mem _ hmem⟩

/-- An event by which nothing is taken. -/
theorem Tells.cons (hx : p.Tells x) {e : Event} (he : ∀ param, e.takes (p.origin param) = false)
    {y : Passing} (hhistory : y.fleet.history = e :: x.fleet.history)
    (hdescriptors : y.derived.descriptors = x.derived.descriptors)
    (hpoisoned : y.derived.poisoned = true → p.Panicked (e :: x.fleet.history)) : p.Tells y where
  remembers param d := by
    rw [hdescriptors, hhistory, hx.remembers, taken_cons, he]
    simp
  once param := by
    rw [hhistory, List.countP_cons_of_neg (by simp [he])]
    exact hx.once param
  panicked := by
    rw [hhistory]
    exact hpoisoned

/-- The event by which the descriptor of a parameter is taken. -/
theorem Tells.cons_taken (hx : p.Tells x) {param : String}
    (hd : x.derived.descriptors.get? param = none) {y : Passing}
    (hhistory : y.fleet.history = p.registration engine param (.ok ()) :: x.fleet.history)
    (hderived : y.derived =
      x.derived.after param (Derived.descriptor p.info param) (.ok ())) : p.Tells y where
  remembers other d := by
    rw [hderived, hhistory, taken_cons, takes_registration, Derived.after, Dict.get?_insert]
    split
    · next heq =>
      subst heq
      simp [eq_comm]
    · next hne => simp [hx.remembers, hne]
  once other := by
    rw [hhistory]
    by_cases heq : param = other
    · subst heq
      have hzero : x.fleet.history.countP (Event.takes (p.origin param)) = 0 :=
        List.countP_eq_zero.2 fun e he htakes => hx.not_taken hd ⟨e, he, htakes⟩
      rw [List.countP_cons_of_pos ((takes_registration param param).2 rfl)]
      exact Nat.succ_le_succ (Nat.le_of_eq hzero)
    · rw [List.countP_cons_of_neg (by rwa [takes_registration])]
      exact hx.once other
  panicked := by
    rw [hhistory, hderived]
    exact fun hpoisoned => (hx.panicked hpoisoned).cons _

theorem Tells.handOver (hx : p.Tells x) (hp : p.HasEngine x) (he : p.scope.engine = some engine)
    {param : String} (hd : x.derived.descriptors.get? param = none) :
    p.Tells (p.handOver engine param x).2 := by
  have hhistory := (handOver_of_hasEngine hp he param).1
  have hderived : (p.handOver engine param x).2.derived =
    x.derived.after param (Derived.descriptor p.info param) (p.handOver engine param x).1 := rfl
  cases hanswer : (p.handOver engine param x).1 with
  | ok u =>
    rw [hanswer] at hhistory hderived
    exact hx.cons_taken hd hhistory hderived
  | error fault =>
    rw [hanswer] at hhistory hderived
    have htakes (other : String) :
        (p.registration engine param (.error fault)).takes (p.origin other) = false := rfl
    refine hx.cons htakes hhistory ?_ ?_
    · rw [hderived]
      cases fault <;> rfl
    · rw [hderived]
      cases fault with
      | error e => exact fun hpoisoned => (hx.panicked hpoisoned).cons _
      | panic text => exact fun _ => ⟨engine, param, _, text, List.mem_cons_self⟩
      | tooDeep => exact fun hpoisoned => (hx.panicked hpoisoned).cons _

theorem Tells.handIn (hx : p.Tells x) (hp : p.HasEngine x) (he : p.scope.engine = some engine)
    (t : Transform) (v : Value) :
    p.Tells (p.handIn engine t (Derived.descriptor p.info t.param) v x).2 :=
  hx.cons (fun _ => rfl) (handIn_of_hasEngine hp he t v).1 rfl
    fun hpoisoned => (hx.panicked hpoisoned).cons _

/-! ## What a step asks -/

/-- What becomes of the first transformation of a parameter that comes to an engine. A refusal is
the answer of the transformation, and nothing is remembered; else the value is submitted. -/
def Tried (p : Passage) (engine : EngineId) (t : Transform) (v : Value) (x : Passing)
    (r : Except Fault Value × Passing) : Except Fault Unit → Prop
  | .error fault => r.1 = .error fault ∧
      r.2.derived.descriptors = x.derived.descriptors ∧
      r.2.fleet.history = p.registration engine t.param (.error fault) :: x.fleet.history
  | .ok () =>
      r.2.derived.descriptors.get? t.param = some (Derived.descriptor p.info t.param) ∧
      r.2.fleet.history = p.submission engine t.param v ::
        p.registration engine t.param (.ok ()) :: x.fleet.history

/-- What a transformation asks, by what the history tells. -/
structure Serves (p : Passage) (t : Transform) (v : Value) (x : Passing)
    (r : Except Fault Value × Passing) : Prop where
  workflow : t.workflow = true → r.2 = x
  noEngine : p.scope.engine = none → r.2 = x
  others : ∀ param ≠ t.param,
    r.2.derived.descriptors.get? param = x.derived.descriptors.get? param
  again : ∀ engine, t.workflow = false → p.scope.engine = some engine →
    ¬ p.Panicked x.fleet.history → p.Taken t.param x.fleet.history →
    r.2.derived = x.derived ∧
      r.2.fleet.history = p.submission engine t.param v :: x.fleet.history
  first : ∀ engine, t.workflow = false → p.scope.engine = some engine →
    ¬ p.Panicked x.fleet.history → ¬ p.Taken t.param x.fleet.history →
    ∃ answer, p.Tried engine t v x r answer

/-- The right of an event to happen in a step: an engine is asked to take a descriptor that was not
taken so far, or to run a derived task whose descriptor was. -/
inductive MayAsk (p : Passage) (t : Transform) (v : Value) (earlier : List Event) : Event → Prop
  | register {engine : EngineId} (answer : Except Fault Unit) : t.workflow = false →
      p.scope.engine = some engine → ¬ p.Taken t.param earlier →
      p.MayAsk t v earlier (p.registration engine t.param answer)
  | submit {engine : EngineId} : t.workflow = false →
      p.scope.engine = some engine → p.Taken t.param earlier →
      p.MayAsk t v earlier (p.submission engine t.param v)

/-- What a transformation leaves to those after it. -/
structure Leaves (p : Passage) (t : Transform) (v : Value) (x : Passing)
    (r : Except Fault Value × Passing) : Prop where
  tells : p.Tells r.2
  hasEngine : p.HasEngine r.2
  grown : Grown (p.MayAsk t v) x.fleet.history r.2.fleet.history
  serves : p.Serves t v x r

/-- What a transformation asks that comes to the engine. -/
theorem Asks.serves (h : p.Asks engine t x)
    (others : ∀ param ≠ t.param,
      r.2.derived.descriptors.get? param = x.derived.descriptors.get? param)
    (again : p.Taken t.param x.fleet.history → r.2.derived = x.derived ∧
      r.2.fleet.history = p.submission engine t.param v :: x.fleet.history)
    (first : ¬ p.Taken t.param x.fleet.history → ∃ answer, p.Tried engine t v x r answer) :
    p.Serves t v x r where
  workflow hw := by cases hw.symm.trans h.workflow
  noEngine he := by cases he.symm.trans h.engine
  others := others
  again engine' _ he _ htaken := by
    cases he.symm.trans h.engine
    exact again htaken
  first engine' _ he _ hnew := by
    cases he.symm.trans h.engine
    exact first hnew

/-- A value is submitted under the descriptor that was taken before. -/
theorem Leaves.again (hx : p.Tells x) (hp : p.HasEngine x) (h : p.Asks engine t x)
    (htaken : p.Taken t.param x.fleet.history) :
    p.Leaves t v x (p.handIn engine t (Derived.descriptor p.info t.param) v x) := by
  obtain ⟨hhistory, hengine⟩ := handIn_of_hasEngine hp h.engine t v
  refine ⟨hx.handIn hp h.engine t v, hengine, ?_, ?_⟩
  · rw [hhistory]
    exact .cons .refl (.submit h.workflow h.engine htaken)
  · exact h.serves (fun _ _ => rfl) (fun _ => ⟨rfl, hhistory⟩) fun hnew => absurd htaken hnew

/-- The engine does not take the descriptor. -/
theorem Leaves.refused (hx : p.Tells x) (hp : p.HasEngine x) (h : p.Asks engine t x)
    (hd : x.derived.descriptors.get? t.param = none) {fault : Fault}
    (ha : (p.handOver engine t.param x).1 = .error fault) :
    p.Leaves t v x (.error fault, (p.handOver engine t.param x).2) := by
  obtain ⟨hhistory, hengine⟩ := handOver_of_hasEngine hp h.engine t.param
  have hdescriptors :
      (p.handOver engine t.param x).2.derived.descriptors = x.derived.descriptors := by
    show (x.derived.after t.param _ (p.handOver engine t.param x).1).descriptors = _
    rw [ha]
    cases fault <;> rfl
  have hnew := hx.not_taken hd
  rw [ha] at hhistory
  refine ⟨hx.handOver hp h.engine hd, hengine, ?_, ?_⟩
  · rw [hhistory]
    exact .cons .refl (.register _ h.workflow h.engine hnew)
  · refine h.serves ?_ (fun htaken => absurd htaken hnew) fun _ => ?_
    · intro param _
      rw [hdescriptors]
    · exact ⟨.error fault, rfl, hdescriptors, hhistory⟩

/-- The engine takes the descriptor, and the value is submitted. -/
theorem Leaves.taken (hx : p.Tells x) (hp : p.HasEngine x) (h : p.Asks engine t x)
    (hd : x.derived.descriptors.get? t.param = none)
    (ha : (p.handOver engine t.param x).1 = .ok ()) :
    p.Leaves t v x (p.handIn engine t (Derived.descriptor p.info t.param) v
      (p.handOver engine t.param x).2) := by
  obtain ⟨hover, hengine⟩ := handOver_of_hasEngine hp h.engine t.param
  obtain ⟨hin, hengine'⟩ := handIn_of_hasEngine hengine h.engine t v
  have htells := hx.handOver hp h.engine hd
  have hdescriptors : (p.handOver engine t.param x).2.derived.descriptors =
      x.derived.descriptors.insert t.param (Derived.descriptor p.info t.param) := by
    show (x.derived.after t.param _ (p.handOver engine t.param x).1).descriptors = _
    rw [ha]
    rfl
  have hnew := hx.not_taken hd
  rw [ha] at hover
  rw [hover] at hin
  refine ⟨htells.handIn hengine h.engine t v, hengine', ?_, ?_⟩
  · -- the descriptor counts as taken by the time the value is submitted, by the event just before
    rw [hin]
    refine .cons (.cons .refl (.register _ h.workflow h.engine hnew)) ?_
    exact .submit h.workflow h.engine (taken_cons.2 (.inl ((takes_registration _ _).2 rfl)))
  · refine h.serves ?_ (fun htaken => absurd htaken hnew) fun _ => ⟨.ok (), ?_, hin⟩
    · intro param hne
      show (p.handOver engine t.param x).2.derived.descriptors.get? param = _
      rw [hdescriptors]
      exact Dict.get?_insert_of_ne _ _ hne.symm
    · show (p.handOver engine t.param x).2.derived.descriptors.get? t.param = _
      rw [hdescriptors]
      exact Dict.get?_insert_self ..

end Passage

/-! ## Calls one after another -/

/-- A call that comes to a layer: what it brings along and what the layer has, and the engines of
the process by then. -/
structure Visit where
  specs : List Transform
  args : Args
  engines : List Engine := []
  engine : Option (Fin engines.length) := none

namespace Passage

/-- The call on its way through the layer, in a submitter. -/
def during (p : Passage) (v : Visit) : Passage :=
  { p with scope := ⟨.submitter, v.engine.map Fin.val⟩ }

/-- What the call can change, when it comes to the layer. -/
def arrival (v : Visit) (x : Passing) : Passing :=
  ⟨v.args, x.derived, ⟨v.engines, x.fleet.history⟩⟩

def visit (p : Passage) (x : Passing) (v : Visit) : Passing :=
  ((p.during v).beforeCall v.specs (arrival v x)).2

/-- Calls one after another through a layer that is new. -/
def visits (p : Passage) (vs : List Visit) : Passing := vs.foldl p.visit ⟨{}, {}, {}⟩

/-- One of the calls comes to the step. -/
def HasStep (p : Passage) (vs : List Visit) (v : Visit) (step : Step) : Prop :=
  ∃ before after, vs = before ++ v :: after ∧
    step ∈ (p.during v).course v.specs (arrival v (p.visits before))

variable {p : Passage}

theorem Tells.arrival {x : Passing} (h : p.Tells x) (v : Visit) : p.Tells (arrival v x) :=
  ⟨h.remembers, h.once, h.panicked⟩

theorem HasStep.append {vs : List Visit} {v : Visit} {step : Step} (h : p.HasStep vs v step)
    (later : List Visit) : p.HasStep (vs ++ later) v step := by
  obtain ⟨before, after, rfl, hstep⟩ := h
  exact ⟨before, after ++ later, by simp, hstep⟩

/-- An engine refuses a descriptor and then takes it, and two values are submitted, for two
functions. -/
example :
    let p : Passage := ⟨⟨"demo", "echo", { params := [{ name := "x" }] }⟩, ⟨.submitter, none⟩, 0, 0⟩
    let answers (r : Except HandoffError Unit) : Engine :=
      ⟨"", [.answer fun _ => r], [.answer fun _ => .ok .null], {}, none⟩
    let visit (n : Int64) (f : TransformFunction) (r : Except HandoffError Unit) : Visit :=
      ⟨[⟨"x", f, ∅, false⟩], .ofPositional [.int n], [answers r], some 0⟩
    (p.visits [visit 1 (fun v _ => .ok v) (.error .noEngine), visit 2 (fun v _ => .ok v) (.ok ()),
        visit 3 (fun _ _ => .ok .null) (.ok ())]).fleet.history =
      [p.submission 0 "x" (.int 3), p.submission 0 "x" (.int 2), p.registration 0 "x" (.ok ()),
        p.registration 0 "x" (.error (.error (.handoff .noEngine)))] := by
  rfl

end Passage
end TaskStack
