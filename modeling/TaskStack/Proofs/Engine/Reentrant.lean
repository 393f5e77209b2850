import TaskStack.Proofs.Engine.Taken

/-!
# An engine used from within its own submissions

The body of a submission may use the engine that runs it: hand over descriptors, submit other tasks,
fail, panic, or catch what a submission of its own ended with. What the engine remembers is under a
lock. A panic while the lock is held would poison it for good; so a submission is noted under the
lock, and its body runs after the lock was let go.

A run is a machine of its own, with the bodies under way on a stack. It goes one call at a time, in
the order in which calls begin, and so does the list of calls. So nothing has to be said about
nesting: what the engine remembers is what the list of calls tells, whichever bodies are under way.

**State.** What is remembered against what was asked (`Ledger.Tells`), for an engine that acts by
itself under a lock that is not poisoned (`Guarded.Sound`). One call more keeps this true.

**Theorem (`after_sound`).** At every point of every run the engine remembers the first valid
descriptor of each signature and nothing else, how often each signature was submitted and the
markers of its latest submission; what it holds only grows at its end; a descriptor that it refuses
or holds already changes nothing; and its lock never answers for it.

* `Machine.step_register`, `step_submit`, `step_done`, `step_look`: what a step does.
* `Machine.exists_steps_submit`: a submission returns what its body ends with.
* `Work.asked_after`: an engine is asked what its use asks it for.
-/

namespace TaskStack

/-! ## What is asked of an engine -/

/-- A call of an engine. -/
inductive Asked where
  | register (d : TaskDescriptor)
  | submit (d : TaskDescriptor) (args : Args)

namespace Asked

/-- The valid descriptor that is offered for a signature. -/
def offers? (signature : String) : Asked → Option TaskDescriptor
  | .register d => if d.canonicalSignature = signature ∧ d.validate.isOk then some d else none
  | .submit .. => none

/-- A signature is submitted. -/
def submits (signature : String) : Asked → Bool
  | .register _ => false
  | .submit d _ => d.canonicalSignature = signature

/-- The markers with which a signature is submitted. -/
def markers? (signature : String) : Asked → Option Options
  | .register _ => none
  | .submit d args => if d.canonicalSignature = signature then some args.markers else none

end Asked

/-- What is remembered of calls, of which the latest is the first in the list: the first valid
descriptor of each signature, and of its submissions how many there were and the latest markers. -/
structure Ledger.Tells (l : Ledger) (asked : List Asked) : Prop where
  apart : l.registrations.Pairwise fun a b => a.canonicalSignature ≠ b.canonicalSignature
  valid : ∀ d ∈ l.registrations, d.validate = .ok ()
  held : ∀ s, l.descriptor? s = asked.reverse.findSome? (·.offers? s)
  count : ∀ s, l.submissionCount s = asked.countP (·.submits s)
  markers : ∀ s, l.lastMarkers.get? s = asked.findSome? (·.markers? s)

namespace Ledger

variable {l : Ledger} {d : TaskDescriptor} {asked : List Asked}

theorem tells_nil : ({} : Ledger).Tells [] where
  apart := .nil
  valid := by simp
  held _ := rfl
  count _ := rfl
  markers _ := rfl

/-- What becomes of a descriptor, with the reason. -/
inductive Registers (l : Ledger) (d : TaskDescriptor) : Except HandoffError Unit × Ledger → Prop
  | invalid {e : HandoffError} : d.validate = .error e → Registers l d (.error e, l)
  | same : d.validate = .ok () → l.descriptor? d.canonicalSignature = some d →
      Registers l d (.ok (), l)
  | other {held : TaskDescriptor} : d.validate = .ok () →
      l.descriptor? d.canonicalSignature = some held → held ≠ d →
      Registers l d
        (.error (.rejected d.canonicalSignature "ya registrado con otro contenido"), l)
  | new : d.validate = .ok () → l.descriptor? d.canonicalSignature = none →
      Registers l d (.ok (), { l with registrations := l.registrations ++ [d] })

theorem registers (l : Ledger) (d : TaskDescriptor) : l.Registers d (l.register d) := by
  unfold register
  cases hvalid : d.validate with
  | error e => exact .invalid hvalid
  | ok u =>
    cases hheld : l.descriptor? d.canonicalSignature with
    | none => exact .new hvalid hheld
    | some held =>
      by_cases hsame : held = d
      · simp only [hsame, if_true]
        exact .same hvalid (hsame ▸ hheld)
      · simp only [hsame, if_false]
        exact .other hvalid hheld hsame

/-- A descriptor that comes second to one of its signature changes nothing that is told. -/
theorem Tells.register_held {held : TaskDescriptor} (h : l.Tells asked)
    (hheld : l.descriptor? d.canonicalSignature = some held) : l.Tells (.register d :: asked) where
  apart := h.apart
  valid := h.valid
  held s := by
    rw [List.reverse_cons, List.findSome?_append, ← h.held]
    by_cases hs : d.canonicalSignature = s
    · rw [← hs, hheld]
      rfl
    · simp [Asked.offers?, hs]
  count := h.count
  markers := h.markers

/-- **One descriptor more.** -/
theorem Tells.register (h : l.Tells asked) (d : TaskDescriptor) :
    (l.register d).2.Tells (.register d :: asked) := by
  have hcase := l.registers d
  generalize l.register d = result at hcase
  cases hcase with
  | invalid hvalid =>
    refine ⟨h.apart, h.valid, fun s => ?_, h.count, h.markers⟩
    simp [Asked.offers?, hvalid, Except.isOk, Except.toBool, h.held]
  | same _ hheld => exact h.register_held hheld
  | other _ hheld => exact h.register_held hheld
  | new hvalid hnone =>
    refine ⟨?_, ?_, fun s => ?_, h.count, h.markers⟩
    · have hfree : ∀ x ∈ l.registrations, x.canonicalSignature ≠ d.canonicalSignature := by
        simpa using List.find?_eq_none.1 hnone
      rw [List.pairwise_append]
      refine ⟨h.apart, List.pairwise_singleton _ _, fun x hx y hy => ?_⟩
      obtain rfl := List.mem_singleton.1 hy
      exact hfree x hx
    · intro x hx
      obtain hx | hx := List.mem_append.1 hx
      · exact h.valid x hx
      · obtain rfl := List.mem_singleton.1 hx
        exact hvalid
    · rw [descriptor?_append, h.held, List.reverse_cons, List.findSome?_append]
      simp [Asked.offers?, hvalid, Except.isOk, Except.toBool]

/-- **One submission more.** -/
theorem Tells.note (h : l.Tells asked) (d : TaskDescriptor) (args : Args) :
    (l.note d.canonicalSignature args).Tells (.submit d args :: asked) where
  apart := h.apart
  valid := h.valid
  held s := by
    rw [List.reverse_cons, List.findSome?_append, ← h.held]
    exact (Option.or_none).symm
  count s := by
    rw [submissionCount_note, h.count, List.countP_cons]
    simp [Asked.submits]
  markers s := by
    rw [Ledger.note, Dict.get?_insert, List.findSome?_cons, ← h.markers, Asked.markers?]
    split <;> rfl

theorem prefix_register (l : Ledger) (d : TaskDescriptor) :
    l.registrations <+: (l.register d).2.registrations := by
  obtain ⟨hsame, -⟩ | ⟨-, htaken⟩ := l.register_cases d
  · simp only [hsame, List.prefix_rfl]
  · rw [htaken]
    exact List.prefix_append _ _

end Ledger

/-! ## The lock -/

/-- What a poisoned lock answers. -/
def poisonedEngine : Fault := .error (.handoff (.poisoned "local engine"))

/-- An engine under its lock, with what it was asked, the latest first. -/
structure Guarded where
  engine : Engine := {}
  poisoned : Bool := false
  asked : List Asked := []

namespace Guarded

/-- The answer is a panic. -/
def panics {α : Type} : Except Fault α → Bool
  | .error (.panic _) => true
  | _ => false

/-- Hands a descriptor over. It is looked at before the lock is taken. -/
def register (g : Guarded) (d : TaskDescriptor) : Except Fault Unit × Guarded :=
  let g := { g with asked := .register d :: g.asked }
  match d.validate with
  | .error e => (.error (.error (.handoff e)), g)
  | .ok () =>
    if g.poisoned then (.error poisonedEngine, g)
    else
      let (answer, engine) := g.engine.register d
      (answer, { g with engine, poisoned := panics answer })

/-- Submits a call, up to the point where the lock is let go. -/
def submit (g : Guarded) (d : TaskDescriptor) (args : Args) : Admission × Guarded :=
  let g := { g with asked := .submit d args :: g.asked }
  if g.poisoned then (.settled (.error poisonedEngine), g)
  else
    let (admission, engine) := g.engine.submit d.canonicalSignature args
    let poisoned := match admission with
      | .run => false
      | .settled result => panics result
    (admission, { g with engine, poisoned })

theorem asked_register (g : Guarded) (d : TaskDescriptor) :
    (g.register d).2.asked = .register d :: g.asked := by
  unfold register
  dsimp only
  split
  · rfl
  · split <;> rfl

theorem asked_submit (g : Guarded) (d : TaskDescriptor) (args : Args) :
    (g.submit d args).2.asked = .submit d args :: g.asked := by
  unfold submit
  dsimp only
  split <;> rfl

/-- What is true of a local engine from its beginning on. -/
structure Sound (g : Guarded) : Prop where
  isLocal : g.engine.IsLocal
  healthy : g.poisoned = false
  tells : g.engine.ledger.Tells g.asked

variable {g : Guarded} {d : TaskDescriptor}

theorem register_of_sound (h : g.Sound) (d : TaskDescriptor) :
    g.register d = ((g.engine.ledger.register d).1.mapError fun e => .error (.handoff e),
      { engine := { g.engine with ledger := (g.engine.ledger.register d).2 }
        poisoned := false
        asked := .register d :: g.asked }) := by
  have hcase := g.engine.ledger.registers d
  rw [register, Engine.register_of_isLocal h.isLocal, h.healthy]
  generalize g.engine.ledger.register d = result at hcase ⊢
  cases hcase with
  | invalid hvalid | same hvalid _ | other hvalid _ _ | new hvalid _ =>
    rw [hvalid]
    rfl

theorem submit_of_sound (h : g.Sound) (d : TaskDescriptor) (args : Args) :
    g.submit d args = (.run,
      { engine := { g.engine with ledger := g.engine.ledger.note d.canonicalSignature args }
        poisoned := false
        asked := .submit d args :: g.asked }) := by
  rw [submit, Engine.submit_of_isLocal h.isLocal, h.healthy]
  rfl

theorem Sound.register (h : g.Sound) (d : TaskDescriptor) : (g.register d).2.Sound := by
  rw [register_of_sound h]
  exact ⟨h.isLocal.withLedger _, rfl, h.tells.register d⟩

theorem Sound.submit (h : g.Sound) (d : TaskDescriptor) (args : Args) :
    (g.submit d args).2.Sound := by
  rw [submit_of_sound h]
  exact ⟨h.isLocal.withLedger _, rfl, h.tells.note d args⟩

/-- What the engine answers at a point, under its lock as without it, and when that changes nothing.
-/
structure Answers (g : Guarded) : Prop where
  register : ∀ d, ((g.register d).1, (g.register d).2.engine) = g.engine.register d
  submit : ∀ d args, ((g.submit d args).1, (g.submit d args).2.engine) =
    g.engine.submit d.canonicalSignature args
  ok_iff : ∀ d, (g.register d).1 = .ok () ↔ d.validate = .ok () ∧
    ∀ held, g.engine.ledger.descriptor? d.canonicalSignature = some held → held = d
  unchanged : ∀ d, ((∃ fault, (g.register d).1 = .error fault) ∨
    g.engine.ledger.descriptor? d.canonicalSignature = some d) →
    (g.register d).2.engine = g.engine
  register_ne_poisoned : ∀ d lock, (g.register d).1 ≠ .error (.error (.handoff (.poisoned lock)))
  runs : ∀ d args, (g.submit d args).1 = .run

/-- **What a local engine answers.** -/
theorem Sound.answers (h : g.Sound) : g.Answers where
  register d := by rw [register_of_sound h, Engine.register_of_isLocal h.isLocal]
  submit d args := by rw [submit_of_sound h, Engine.submit_of_isLocal h.isLocal]
  ok_iff d := by
    rw [register_of_sound h, ← Ledger.takes_iff, Ledger.Takes, mapError_eq_ok_iff]
  unchanged d := by
    rw [register_of_sound h]
    have hcase := g.engine.ledger.registers d
    generalize g.engine.ledger.register d = result at hcase ⊢
    rintro (⟨fault, hfault⟩ | hheld)
    · cases hcase with
      | invalid | same | other => rfl
      | new => cases hfault
    · cases hcase with
      | invalid | same | other => rfl
      | new _ hnone => cases hheld.symm.trans hnone
  register_ne_poisoned d lock := by
    have hanswer := g.engine.ledger.register_ne_poisoned d lock
    rw [register_of_sound h]
    cases hledger : (g.engine.ledger.register d).1 with
    | ok u =>
      intro heq
      cases heq
    | error e =>
      intro heq
      cases heq
      exact hanswer hledger
  runs d args := by rw [submit_of_sound h]

end Guarded

/-! ## Runs -/

/-- The use of an engine: to end, to hand over a descriptor, to submit a call with its body, or to
look at what is remembered, and to go on with what comes of it. -/
inductive Work where
  | done (result : Except Abort Value)
  | register (d : TaskDescriptor) (next : Except Fault Unit → Work)
  | submit (d : TaskDescriptor) (schema : Schema) (args : Args) (body : Bound → Work)
    (next : Except Fault Value → Work)
  | look (next : Ledger → Work)

/-- What the engine is asked for next, if that is what is done next. -/
def Work.asks? : Work → Option Asked
  | .register d _ => some (.register d)
  | .submit d _ args _ _ => some (.submit d args)
  | .done _ | .look _ => none

/-- A run: what is done next, and who waits for it, the latest first. -/
structure Machine where
  guarded : Guarded := {}
  work : Work
  waiting : List (Except Fault Value → Work) := []

namespace Machine

/-- One step. A body begins when its submission was noted, and what it ends with goes to the one who
submitted it; a run that has ended stays as it is. -/
def step (m : Machine) : Machine :=
  match m.work with
  | .done result =>
    match m.waiting with
    | [] => m
    | next :: waiting => { m with work := next (result.mapError Abort.fault), waiting }
  | .register d next =>
    let (answer, guarded) := m.guarded.register d
    { m with guarded, work := next answer }
  | .submit d schema args body next =>
    match m.guarded.submit d args with
    | (.run, guarded) =>
      { guarded, work := body (Bound.of schema args.withoutMarkers), waiting := next :: m.waiting }
    | (.settled result, guarded) => { m with guarded, work := next result }
  | .look next => { m with work := next m.guarded.engine.ledger }

def steps : Nat → Machine → Machine
  | 0, m => m
  | n + 1, m => steps n m.step

theorem steps_add (n k : Nat) (m : Machine) : m.steps (n + k) = (m.steps n).steps k := by
  induction n generalizing m with
  | zero => rw [Nat.zero_add, steps]
  | succ n ih => rw [Nat.succ_add, steps, steps, ih]

variable {m : Machine} {d : TaskDescriptor} {schema : Schema} {args : Args} {body : Bound → Work}
  {next : Except Fault Value → Work} {result : Except Abort Value} {g : Guarded}

/-! ## Steps -/

/-- A descriptor is handed over, and the answer is gone on with. -/
theorem step_register {next : Except Fault Unit → Work} (h : m.work = .register d next) :
    m.step = { m with
      guarded := (m.guarded.register d).2
      work := next (m.guarded.register d).1 } := by
  rw [step, h]

/-- A submission that is let run begins with its body, and who submitted it waits. -/
theorem step_submit (h : m.work = .submit d schema args body next)
    (hrun : (m.guarded.submit d args).1 = .run) :
    m.step =
      { guarded := (m.guarded.submit d args).2
        work := body (Bound.of schema args.withoutMarkers)
        waiting := next :: m.waiting } := by
  rw [step, h]
  dsimp only
  split
  · next hsubmit => rw [hsubmit]
  · next hsubmit =>
    rw [hsubmit] at hrun
    cases hrun

/-- A submission that the engine settles by itself has no body to run. -/
theorem step_settled {answer : Except Fault Value} (h : m.work = .submit d schema args body next)
    (hsettled : (m.guarded.submit d args).1 = .settled answer) :
    m.step = { m with guarded := (m.guarded.submit d args).2, work := next answer } := by
  rw [step, h]
  dsimp only
  split
  · next hsubmit =>
    rw [hsubmit] at hsettled
    cases hsettled
  · next hsubmit =>
    rw [hsubmit] at hsettled ⊢
    cases hsettled
    rfl

/-- What a body ends with goes to the one who submitted it last. -/
theorem step_done {waiting : List (Except Fault Value → Work)} (h : m.work = .done result)
    (hwaiting : m.waiting = next :: waiting) :
    m.step = { m with work := next (result.mapError Abort.fault), waiting } := by
  rw [step, h, hwaiting]

/-- A run that has ended stays as it is. -/
theorem step_ended (g : Guarded) (result : Except Abort Value) :
    step ⟨g, .done result, []⟩ = ⟨g, .done result, []⟩ := rfl

/-- The engine is looked at, and stays as it is. -/
theorem step_look {next : Ledger → Work} (h : m.work = .look next) :
    m.step = { m with work := next m.guarded.engine.ledger } := by
  rw [step, h]

/-! ## Bodies -/

/-- A machine above what waits already. -/
def above (m : Machine) (waiting : List (Except Fault Value → Work)) : Machine :=
  { m with waiting := m.waiting ++ waiting }

/-- What waits already is not touched before the work above it has ended. -/
theorem step_above (h : ∀ g result, m ≠ ⟨g, .done result, []⟩)
    (waiting : List (Except Fault Value → Work)) :
    (m.above waiting).step = m.step.above waiting := by
  obtain ⟨g, work, upper⟩ := m
  cases work with
  | done result =>
    cases upper with
    | nil => exact absurd rfl (h g result)
    | cons next upper => rfl
  | register d next => rfl
  | submit d schema args body next =>
    simp only [step, above]
    split <;> rfl
  | look next => rfl

theorem steps_ended (g : Guarded) (result : Except Abort Value) (n : Nat) :
    steps n ⟨g, .done result, []⟩ = ⟨g, .done result, []⟩ := by
  induction n with
  | zero => rfl
  | succ n ih => rw [steps, step_ended, ih]

/-- Work that comes to its end does so above whatever waits. -/
theorem exists_steps_above {n : Nat} (h : m.steps n = ⟨g, .done result, []⟩)
    (waiting : List (Except Fault Value → Work)) :
    ∃ k, (m.above waiting).steps k = ⟨g, .done result, waiting⟩ := by
  induction n generalizing m with
  | zero =>
    rw [steps] at h
    subst h
    exact ⟨0, rfl⟩
  | succ n ih =>
    by_cases hended : ∃ g result, m = ⟨g, .done result, []⟩
    · obtain ⟨g', result', rfl⟩ := hended
      rw [steps_ended] at h
      cases h
      exact ⟨0, rfl⟩
    · obtain ⟨k, hk⟩ := ih h
      refine ⟨k + 1, ?_⟩
      rw [steps, step_above (fun g result heq => hended ⟨g, result, heq⟩), hk]

/-- **A submission returns** what its body ends with, whatever the body does with the engine. -/
theorem exists_steps_submit (hg : m.guarded.Sound) (h : m.work = .submit d schema args body next)
    {n : Nat} (hbody : steps n ⟨(m.guarded.submit d args).2,
      body (Bound.of schema args.withoutMarkers), []⟩ = ⟨g, .done result, []⟩) :
    ∃ k, m.steps k = ⟨g, next (result.mapError Abort.fault), m.waiting⟩ := by
  obtain ⟨k, hk⟩ := exists_steps_above hbody (next :: m.waiting)
  refine ⟨1 + k + 1, ?_⟩
  have hbegins : m.steps 1 = Machine.above ⟨(m.guarded.submit d args).2,
      body (Bound.of schema args.withoutMarkers), []⟩ (next :: m.waiting) :=
    step_submit h (hg.answers.runs d args)
  rw [steps_add, steps_add, hbegins, hk]
  rfl

/-! ## What the engine is asked -/

/-- A step asks the engine for something, or leaves it alone. -/
theorem guarded_step (m : Machine) : m.step.guarded = m.guarded ∨
    (∃ d, m.step.guarded = (m.guarded.register d).2) ∨
    ∃ d args, m.step.guarded = (m.guarded.submit d args).2 := by
  obtain ⟨g, work, waiting⟩ := m
  cases work with
  | done result =>
    cases waiting with
    | nil => exact .inl rfl
    | cons next waiting => exact .inl (by rw [step_done rfl rfl])
  | register d next => exact .inr (.inl ⟨d, by rw [step_register rfl]⟩)
  | submit d schema args body next =>
    refine .inr (.inr ⟨d, args, ?_⟩)
    cases hsubmit : (g.submit d args).1 with
    | run => rw [step_submit rfl hsubmit]
    | settled answer => rw [step_settled rfl hsubmit]
  | look next => exact .inl (by rw [step_look rfl])

/-- **A step asks the engine for what is to be asked,** and for nothing else. -/
theorem asked_step (m : Machine) :
    m.step.guarded.asked = m.work.asks?.toList ++ m.guarded.asked := by
  obtain ⟨g, work, waiting⟩ := m
  cases work with
  | done result =>
    cases waiting with
    | nil => rfl
    | cons next waiting =>
      rw [step_done rfl rfl]
      rfl
  | register d next =>
    rw [step_register rfl]
    exact g.asked_register d
  | submit d schema args body next =>
    cases hsubmit : (g.submit d args).1 with
    | run =>
      rw [step_submit rfl hsubmit]
      exact g.asked_submit d args
    | settled answer =>
      rw [step_settled rfl hsubmit]
      exact g.asked_submit d args
  | look next =>
    rw [step_look rfl]
    rfl

theorem asked_steps (m : Machine) (n : Nat) : (m.steps n).guarded.asked =
    ((List.range n).filterMap fun i => (m.steps i).work.asks?).reverse ++ m.guarded.asked := by
  induction n with
  | zero => rfl
  | succ n ih =>
    have hstep : m.steps (n + 1) = (m.steps n).step := steps_add n 1 m
    rw [hstep, asked_step, ih, List.range_succ, List.filterMap_append, List.reverse_append,
      List.append_assoc, List.filterMap_cons]
    cases (m.steps n).work.asks? <;> rfl

theorem sound_step (h : m.guarded.Sound) : m.step.guarded.Sound := by
  obtain hsame | ⟨d, hregister⟩ | ⟨d, args, hsubmit⟩ := m.guarded_step
  · rw [hsame]
    exact h
  · rw [hregister]
    exact h.register d
  · rw [hsubmit]
    exact h.submit d args

theorem prefix_step (h : m.guarded.Sound) :
    m.guarded.engine.ledger.registrations <+: m.step.guarded.engine.ledger.registrations := by
  obtain hsame | ⟨d, hregister⟩ | ⟨d, args, hsubmit⟩ := m.guarded_step
  · simp only [hsame, List.prefix_rfl]
  · rw [hregister, Guarded.register_of_sound h]
    exact Ledger.prefix_register _ d
  · rw [hsubmit, Guarded.submit_of_sound h]
    exact List.prefix_rfl

theorem sound_steps (h : m.guarded.Sound) (n : Nat) : (m.steps n).guarded.Sound := by
  induction n generalizing m with
  | zero => exact h
  | succ n ih => exact ih (sound_step h)

theorem prefix_steps (h : m.guarded.Sound) (n : Nat) :
    m.guarded.engine.ledger.registrations <+:
      (m.steps n).guarded.engine.ledger.registrations := by
  induction n generalizing m with
  | zero => exact List.prefix_rfl
  | succ n ih => exact (prefix_step h).trans (ih (sound_step h))

end Machine

namespace Work

/-- A new engine after some steps of its use. -/
def after (w : Work) (n : Nat) : Guarded := (Machine.steps n { work := w }).guarded

theorem sound_after (w : Work) (n : Nat) : (w.after n).Sound :=
  Machine.sound_steps ⟨⟨rfl, rfl, rfl⟩, rfl, Ledger.tells_nil⟩ n

/-- What a new engine was asked is what its use asked it for, one after another. -/
theorem asked_after (w : Work) (n : Nat) : (w.after n).asked =
    ((List.range n).filterMap fun i => (Machine.steps i { work := w }).work.asks?).reverse := by
  rw [after, Machine.asked_steps, List.append_nil]

/-- **What an engine remembers is what it was asked,** however its calls are nested and whatever
their bodies end with. -/
theorem after_sound (w : Work) (n : Nat) :
    (w.after n).engine.ledger.Tells (w.after n).asked ∧
    (∀ k, (w.after n).engine.ledger.registrations <+:
      (w.after (n + k)).engine.ledger.registrations) ∧
    (w.after n).Answers := by
  refine ⟨(w.sound_after n).tells, fun k => ?_, (w.sound_after n).answers⟩
  rw [after, after, Machine.steps_add]
  exact Machine.prefix_steps (w.sound_after n) k

/-- A body that submits its own task again and panics in it, and goes on after the panic. Then a
descriptor with other contents is refused. -/
example :
    let d : TaskDescriptor :=
      { canonicalSignature := "demo.f", implementationSignature := some "demo.f",
        implementationType := some .plain, implementationArgs := some ["demo", "f"] }
    let panics (_ : Bound) : Work := .done (.error (.panic "otra vez"))
    let again (_ : Bound) : Work := .submit d {} {} panics fun answer =>
      .done (.ok (.bool (Guarded.panics answer)))
    let w : Work := .register d fun _ => .submit d {} {} again fun answer =>
      .register { d with io := some true } fun other =>
        .done (.ok (.array [.bool other.isOk, answer.toOption.getD .null]))
    let m := Machine.steps 6 { work := w }
    m.guarded.engine.ledger.registrations = [d] ∧
      m.guarded.engine.ledger.submissionCount "demo.f" = 2 ∧
      m.work = .done (.ok (.array [.bool false, .bool true])) ∧ m.waiting = [] :=
  ⟨rfl, rfl, rfl, rfl⟩

end Work
end TaskStack
