import TaskStack.Proofs.Session.Definitions
import TaskStack.Proofs.Session.Dialogue
import TaskStack.Proofs.Session.Mending
import Mathlib.Order.Filter.Cofinite

/-!
# Mended runs

A mended session goes the same way as the other. What is remembered, asked and run is the same, and
so is every answer, but for the failures in place of the panics. Only the text of the failure must
not be that of a failure which a body might look at, and there are few of those in a run.

**Theorem (`performAll_mended`).** A run of the mended commands leaves the mended session, and each
answer in it stands for the one of the other run.

* `Dialogue.Mends`, `Dialogue.Mends.run`: dialogues that go the same way.
* `Passage.dialogue_mends`, `Task.dialogue_mends`: the dialogues of a layer and of a whole way.
* `run_mended`, `callWithin_mended`: a body, and a call.
-/

namespace TaskStack

/-! ## Dialogues -/

namespace Dialogue

variable {α β : Type} {m : Mending} {last : Option String}

/-- Two dialogues that go the same way, the second with mended answers. Their outcomes are compared
in view of the panic of the hand-over that was asked last; nothing is asked after such a panic. -/
inductive Mends (m : Mending) (R : Option String → α → α → Prop) :
    Option String → Dialogue α → Dialogue α → Prop
  | done {last : Option String} {a b : α} : R last a b → Mends m R last (.done a) (.done b)
  | register {engine : EngineId} {o : Origin} {d : TaskDescriptor}
      {next next' : Except Fault Unit → Dialogue α} :
      (∀ answer, Mends m R (Event.register engine o d answer).panic? (next answer) (next' answer)) →
      Mends m R none (.register engine o d next) (.register engine o d next')
  | submit {engine : EngineId} {o : Origin} {d : TaskDescriptor} {schema : Schema} {args : Args}
      {next next' : Admission → Dialogue α} :
      (∀ admission, Mends m R none (next admission) (next' (admission.mended m))) →
      Mends m R none (.submit engine o d schema args next)
        (.submit engine o d schema (args.mended m) next')
  | body {id : TaskId} {role : Role} {next next' : Dialogue α} :
      Mends m R none next next' → Mends m R none (.body id role next) (.body id role next')

theorem Mends.bind {R : Option String → α → α → Prop} {R' : Option String → β → β → Prop}
    {x y : Dialogue α} {k k' : α → Dialogue β} (h : Mends m R last x y)
    (hk : ∀ last a b, R last a b → Mends m R' last (k a) (k' b)) :
    Mends m R' last (x.bind k) (y.bind k') := by
  induction h with
  | done hab => exact hk _ _ _ hab
  | register _ ih => exact .register ih
  | submit _ ih => exact .submit ih
  | body _ ih => exact .body ih

/-- **Dialogues that go the same way** do so with engines that answer alike. -/
theorem Mends.run {R : Option String → α → α → Prop} {x y : Dialogue α} (h : Mends m R last x y)
    {f : Fleet} {n : Nat} (hn : n ≤ f.history.length) (hf : f.panicSince? n = last) :
    R ((x.run f).2.panicSince? n) (x.run f).1 (y.run (f.mended m)).1 ∧
      (y.run (f.mended m)).2 = (x.run f).2.mended m := by
  induction h generalizing f with
  | done hab => exact ⟨hf ▸ hab, rfl⟩
  | @register engine o d next next' _ ih =>
    rw [Dialogue.run, Dialogue.run, Fleet.register_mended]
    obtain ⟨-, hr⟩ | ⟨answer, engines, hr⟩ := f.register_cases engine o d
    · rw [hr]
      exact ih _ hn hf
    · rw [hr]
      exact ih _ (Nat.le_succ_of_le hn)
        (Fleet.panicSince?_cons engines (.register engine o d answer) hn)
  | @submit engine o d schema args _ _ _ ih =>
    rw [Dialogue.run, Dialogue.run, Fleet.submit_mended]
    obtain ⟨-, hr⟩ | ⟨admission, engines, hr⟩ := f.submit_cases engine o d schema args
    · rw [hr]
      exact ih _ hn hf
    · rw [hr]
      exact ih _ (Nat.le_succ_of_le hn)
        (Fleet.panicSince?_cons engines (.submit engine o d schema args) hn)
  | @body id role _ _ _ ih =>
    exact ih (f := f.log (.body id role)) (Nat.le_succ_of_le hn)
      (Fleet.panicSince?_cons f.engines (.body id role) hn)

end Dialogue

/-! ## The dialogue of a layer -/

namespace Passage

open Dialogue

variable (p : Passage) (m : Mending)

theorem stands_map {α : Type} (engine : EngineId) (o : Origin) (d : TaskDescriptor)
    (answer : Except Fault Unit) (a : α) :
    Stands m id (Event.register engine o d answer).panic? (answer.map fun _ => a)
      (answer.map fun _ => a) := by
  cases answer with
  | ok u => exact .ok a
  | error fault =>
    cases fault with
    | error e => exact .error (.error e)
    | panic text => exact .handOver text
    | tooDeep => exact .error .tooDeep

theorem askDerived_mends (engine : EngineId) (param : String) (x : Derived) :
    Mends m (fun last a b => Stands m id last a.1 b.1 ∧ b.2 = a.2) none
      (p.askDerived engine param x) (p.askDerived engine param x) := by
  unfold askDerived
  split
  · exact .done ⟨.error (.error _), rfl⟩
  · split
    · exact .done ⟨.ok _, rfl⟩
    · exact .register fun answer => .done ⟨stands_map m _ _ _ answer _, rfl⟩

theorem askTransform_mends (u : Transform) (v : Value) (x : Derived) :
    Mends m (fun last a b => Stands m id last a.1 b.1 ∧ b.2 = a.2) none
      (p.askTransform u v x) (p.askTransform (u.mended m) v x) := by
  have hworkflow : (u.mended m).workflow = u.workflow := rfl
  have hparam : (u.mended m).param = u.param := rfl
  rw [askTransform, askTransform, hworkflow, hparam]
  split
  · exact .done ⟨stands_abort m _, rfl⟩
  · split
    · exact .done ⟨.error (.error _), rfl⟩
    · next engine _ =>
      refine (p.askDerived_mends m engine u.param x).bind ?_
      rintro last ⟨r, x⟩ ⟨r', x'⟩ ⟨hr, rfl⟩
      cases hr with
      | error fault => exact .done ⟨.error fault, rfl⟩
      | handOver text => exact .done ⟨.handOver text, rfl⟩
      | ok d =>
        refine .submit fun admission => ?_
        cases admission with
        | settled result => exact .done ⟨stands_mapError m result, rfl⟩
        | run =>
          refine .done ⟨?_, rfl⟩
          rw [Derived.body_mended]
          exact stands_abort m _

theorem askSubstitute_mends (us : List Transform) (args : Args) (x : Derived) :
    Mends m (fun last a b => Stands m id last a.1 b.1 ∧ b.2.1 = a.2.1.mended m ∧ b.2.2 = a.2.2)
      none (p.askSubstitute us args x)
      (p.askSubstitute (us.map (Transform.mended m)) (args.mended m) x) := by
  induction us generalizing args x with
  | nil => exact .done ⟨.ok _, rfl, rfl⟩
  | cons u rest ih =>
    have hlocate : (args.mended m).locate p.info.schema (u.mended m).param =
        args.locate p.info.schema u.param := rfl
    rw [List.map_cons, askSubstitute, askSubstitute, hlocate]
    cases args.locate p.info.schema u.param with
    | none => exact .done ⟨.error (.error _), rfl, rfl⟩
    | some found =>
      obtain ⟨site, v⟩ := found
      refine (p.askTransform_mends m u v x).bind ?_
      rintro last ⟨r, x⟩ ⟨r', x'⟩ ⟨hr, rfl⟩
      cases hr with
      | error fault => exact .done ⟨.error fault, rfl, rfl⟩
      | handOver text => exact .done ⟨.handOver text, rfl, rfl⟩
      | ok w =>
        have hparam : (u.mended m).param = u.param := rfl
        dsimp only
        rw [hparam, id, Args.replace_mended]
        exact ih _ x'

/-- **A layer with mended transformations** goes the same way. -/
theorem dialogue_mends (specs : List Transform) (args : Args) (x : Derived) :
    Mends m (fun last a b => Stands m id last a.1 b.1 ∧ b.2.1 = a.2.1.mended m ∧ b.2.2 = a.2.2)
      none (p.dialogue specs args x)
      (p.dialogue (specs.map (Transform.mended m)) (args.mended m) x) := by
  have hforce : (if (args.mended m).transforms.isEmpty then specs.map (Transform.mended m)
      else (args.mended m).transforms) =
      (if args.transforms.isEmpty then specs else args.transforms).map (Transform.mended m) := by
    simp only [Args.mended, List.isEmpty_map]
    split <;> rfl
  simp only [dialogue, hforce, List.isEmpty_map]
  generalize (if args.transforms.isEmpty then specs else args.transforms) = inForce
  split
  · exact .done ⟨.ok (), rfl, rfl⟩
  · split
    · exact .done ⟨.error (.error _), rfl, rfl⟩
    · exact p.askSubstitute_mends m inForce { args with transforms := [] } x

end Passage

/-! ## The dialogue of a call -/

/-- The layers from outside cannot look into transformations. -/
def Declaration.Blind (d : Declaration) : Prop := ∀ c, .custom c ∈ d.layers → c.Blind

/-- Where the way of a call ends, mended: with an answer that stands for the other, or in the mended
body. -/
inductive Session.Landing.Stands (m : Mending) :
    Option String → Session.Landing → Session.Landing → Prop
  | ended {last : Option String} {r r' : Except Fault Value} : TaskStack.Stands m id last r r' →
      Stands m last (.ended r) (.ended r')
  | body (program : Program) : Stands m none (.body program) (.body (program.mended m))

namespace Task

open Dialogue

variable (m : Mending) (i : TaskId) (scope : Scope)

theorem askLayer_mends (info : TaskInfo) (index : Nat) {layer : Layer}
    (hblind : ∀ c, layer = .custom c → c.Blind) (args : Args) (t : Task) :
    Mends m
      (fun last a b => Stands m id last a.1 b.1 ∧ b.2.1 = a.2.1.mended m ∧ b.2.2 = a.2.2.mended m)
      none (t.askLayer i info scope index layer args)
      ((t.mended m).askLayer i info scope index (layer.mended m) (args.mended m)) := by
  cases layer with
  | transformation specs =>
    refine ((⟨info, scope, i, index⟩ : Passage).dialogue_mends m specs args
      (t.derivedAt index)).bind ?_
    rintro last ⟨r, a, x⟩ ⟨r', a', x'⟩ ⟨hr, ha, hx⟩
    dsimp only at ha hx
    subst ha hx
    exact .done ⟨hr, rfl, rfl⟩
  | custom c =>
    simp only [askLayer, Layer.mended, (hblind c rfl).beforeCall_mended]
    exact .done ⟨stands_mapError m _, rfl, rfl⟩
  | task _ => exact .done ⟨.ok (), rfl, rfl⟩
  | constraint _ => exact .done ⟨.ok (), rfl, rfl⟩
  | mpi _ => exact .done ⟨.ok (), rfl, rfl⟩

theorem askLayers_mends (info : TaskInfo) (index : Nat) {layers : List Layer}
    (hblind : ∀ c, .custom c ∈ layers → c.Blind) (args : Args) (t : Task) :
    Mends m (fun last a b => Stands m (Args.mended m) last a.1 b.1 ∧ b.2 = a.2.mended m)
      none (t.askLayers i info scope index layers args)
      ((t.mended m).askLayers i info scope index (layers.map (Layer.mended m))
        (args.mended m)) := by
  induction layers generalizing index args t with
  | nil => exact .done ⟨.ok args, rfl⟩
  | cons layer rest ih =>
    refine (askLayer_mends m i scope info index (fun c hc => hblind c (by simp [hc])) args
      t).bind ?_
    rintro last ⟨r, a, t⟩ ⟨r', a', t'⟩ ⟨hr, rfl, rfl⟩
    cases hr with
    | error fault => exact .done ⟨.error fault, rfl⟩
    | handOver text => exact .done ⟨.handOver text, rfl⟩
    | ok u =>
      have hlater := ih (index + 1) (fun c hc => hblind c (List.mem_cons_of_mem _ hc))
        (layer.mark a) t
      rwa [← Layer.mark_mended] at hlater

theorem askRegistration_mends (t : Task) :
    Mends m (fun last a b => Stands m id last a.1 b.1 ∧ b.2 = a.2.mended m)
      none (t.askRegistration i scope) ((t.mended m).askRegistration i scope) := by
  have hregistration : (t.mended m).registration = t.registration := rfl
  have hdescribe : Declaration.describe (t.mended m).declaration.info
      (t.mended m).declaration.layers =
        Declaration.describe t.declaration.info t.declaration.layers := describe_mended m _ _
  simp only [askRegistration, hregistration, hdescribe]
  split
  · split
    · exact .done ⟨.error (.error _), rfl⟩
    · exact .done ⟨.ok _, rfl⟩
    · split
      · exact .done ⟨.error (.error _), rfl⟩
      · split
        · exact .done ⟨.error (.error _), rfl⟩
        · exact .register fun answer => .done ⟨Passage.stands_map m _ _ _ answer _, rfl⟩
  · exact .done ⟨.ok none, rfl⟩

theorem askLanding_mends (d : Declaration) (descriptor : Option TaskDescriptor) (args : Args) :
    Mends m (fun last a b => a.Stands m last b) none (askLanding i d scope descriptor args)
      (askLanding i (d.mended m) scope descriptor (args.mended m)) := by
  have hbegun :
      Mends m (fun last a b => Session.Landing.Stands m last a b) none
        (askLanding.begun i d scope args)
        (askLanding.begun i (d.mended m) scope (args.mended m)) :=
    .body (.done (.body _))
  unfold askLanding
  split
  · split
    · exact .done (.ended (.error (.error _)))
    · refine .submit fun admission => ?_
      cases admission with
      | settled result => exact .done (.ended (stands_mapError m result))
      | run => exact hbegun
  · exact hbegun

/-- **The way of a call of a mended task** is the same. -/
theorem dialogue_mends (t : Task) (hblind : t.declaration.Blind) (args : Args) :
    Mends m (fun last a b => a.1.Stands m last b.1 ∧ b.2 = a.2.mended m) none
      (t.dialogue i scope args) ((t.mended m).dialogue i scope (args.mended m)) := by
  refine (askRegistration_mends m i scope t).bind ?_
  rintro last ⟨r, t'⟩ ⟨r', u'⟩ ⟨hr, rfl⟩
  cases hr with
  | error fault => exact .done ⟨.ended (.error fault), rfl⟩
  | handOver text => exact .done ⟨.ended (.handOver text), rfl⟩
  | ok descriptor =>
    have hpassed : Session.passed scope.role (t.mended m).declaration.layers =
        (Session.passed scope.role t.declaration.layers).map (Layer.mended m) := by
      unfold Session.passed
      split <;> rfl
    have hmem : ∀ c, .custom c ∈ Session.passed scope.role t.declaration.layers → c.Blind := by
      intro c hc
      unfold Session.passed at hc
      split at hc
      · cases hc
      · exact hblind c hc
    dsimp only
    rw [hpassed]
    refine (askLayers_mends m i scope t.declaration.info 0 hmem args t').bind ?_
    rintro last ⟨r, t''⟩ ⟨r', u''⟩ ⟨hr, rfl⟩
    cases hr with
    | error fault => exact .done ⟨.ended (.error fault), rfl⟩
    | handOver text => exact .done ⟨.ended (.handOver text), rfl⟩
    | ok args' =>
      refine (askLanding_mends m i scope t.declaration descriptor args').bind ?_
      intro last a b hab
      exact .done ⟨hab, rfl⟩

end Task

namespace Session

open Filter (cofinite eventually_cofinite_ne)

variable {s s' : Session} {covers : String → Bool}

/-! ## Calls -/

/-- No layer from outside can look into transformations. -/
def Blind (s : Session) : Prop := ∀ i d, s.declared? i = some d → d.Blind

/-- What a computation leaves and answers, and what the mended one does. There may have been a few
events before. -/
structure Parallel (m : Mending) (n : Nat) (r r' : Except Fault Value × Session) : Prop where
  session : r'.2 = r.2.mended m
  answer : Stands m id (r.2.fleet.panicSince? n) r.1 r'.1

theorem Parallel.of_done {m : Mending} (r : Except Abort Value) :
    Parallel m s.fleet.history.length (r.mapError Abort.fault, s)
      ((r.mapError (Abort.mended m)).mapError Abort.fault, s.mended m) := by
  refine ⟨rfl, ?_⟩
  rw [Fleet.panicSince?_self]
  exact stands_abort m r

theorem Parallel.of_refused {m : Mending} {fault : Fault} (h : fault.mended m = fault) :
    Parallel m s.fleet.history.length (.error fault, s) (.error fault, s.mended m) := by
  refine ⟨rfl, ?_⟩
  have hstands : Stands m id none (.error fault : Except Fault Value) (.error (fault.mended m)) :=
    .error fault
  rw [h] at hstands
  rwa [Fleet.panicSince?_self]

/-- What happens later is seen from before, if no hand-over has panicked right before it. -/
theorem Parallel.from_earlier {m : Mending} {n : Nat} {r r' : Except Fault Value × Session}
    (h : Parallel m s.fleet.history.length r r') (hn : n ≤ s.fleet.history.length)
    (hnone : s.fleet.panicSince? n = none) (hlater : Moves s r.2) : Parallel m n r r' := by
  refine ⟨h.session, ?_⟩
  rw [Fleet.panicSince?_of_suffix hn hnone hlater.extends.history]
  exact h.answer

theorem task?_mended (m : Mending) (s : Session) (i : TaskId) :
    (s.mended m).task? i = (s.task? i).map (Task.mended m) :=
  List.getElem?_map

theorem after_mended (m : Mending) (s : Session) (i : TaskId) (t : Task) (f : Fleet) :
    (s.mended m).after i (t.mended m) (f.mended m) = (s.after i t f).mended m := by
  simp [after, setTask, mended, List.map_set]

/-- Moves declare nothing. -/
theorem Move.declared? (h : Move s s') (i : TaskId) : s'.declared? i = s.declared? i := by
  have hset {j : TaskId} {t t' : Task} {fleet : Fleet} (ht : s.task? j = some t)
      (hd : t'.declaration = t.declaration) :
      ({ s with fleet }.setTask j t').declared? i = s.declared? i := by
    by_cases hne : j = i
    · subst hne
      rw [Session.declared?, task?_setTask_self (s := { s with fleet }) ht, Session.declared?, ht,
        Option.map_some, hd, Option.map_some]
    · rw [Session.declared?, task?_setTask_of_ne { s with fleet } t' hne]
      rfl
  cases h with
  | handOver _ ht _ _ => exact hset ht rfl
  | handOverDerived _ ht _ _ _ => exact hset ht rfl
  | submitDerived _ _ _ _ => rfl
  | submit _ _ _ _ => rfl
  | body _ _ => rfl

theorem Blind.moves (h : s.Blind) (hmoves : Moves s s') : s'.Blind :=
  hmoves.keeps (I := Blind) (fun _ _ hmove hs i d hd => hs i d (hmove.declared? i ▸ hd)) h

/-- The way of a call in a mended session. -/
theorem enter_mended (m : Mending) (hs : s.Blind) {i : TaskId} {t : Task} (ht : s.task? i = some t)
    (args : Args) :
    ∃ landing, (s.mended m).enter i (t.mended m) (args.mended m) =
        (landing, (s.enter i t args).2.mended m) ∧
      (s.enter i t args).1.Stands m
        ((s.enter i t args).2.fleet.panicSince? s.fleet.history.length) landing := by
  have ht' : (s.mended m).task? i = some (t.mended m) := by rw [task?_mended, ht, Option.map_some]
  have hblind : t.declaration.Blind := hs i _ (by rw [declared?, ht, Option.map_some])
  obtain ⟨⟨hlanding, htask⟩, hfleet⟩ := (Task.dialogue_mends m i s.scope t hblind args).run
    (f := s.fleet) le_rfl s.fleet.panicSince?_self
  have hscope : (s.mended m).scope = s.scope := rfl
  have hsame : (s.mended m).fleet = s.fleet.mended m := rfl
  rw [enter_eq_run ht, enter_eq_run ht', hscope, hsame]
  refine ⟨_, Prod.ext rfl ?_, hlanding⟩
  dsimp only
  rw [htask, hfleet, after_mended]

/-- What a body does with the answer to a call. -/
def resume {σ : Type} (callTask : String → Args → σ → Except Fault Value × σ)
    (next : Except TaskError Value → Program) :
    Except Fault Value × σ → Except Fault Value × σ
  | (.ok v, s) => (next (.ok v)).run callTask s
  | (.error (.error e), s) => (next (.error e)).run callTask s
  | (.error fault, s) => (.error fault, s)

theorem run_call {σ : Type} (callTask : String → Args → σ → Except Fault Value × σ)
    (task : String) (args : Args) (next : Except TaskError Value → Program) (s : σ) :
    (Program.call task args next).run callTask s = resume callTask next (callTask task args s) := by
  rw [Program.run]
  obtain ⟨fault | v, s'⟩ := callTask task args s
  · cases fault <;> rfl
  · rfl

section

variable {callTask : String → Args → Session → Except Fault Value × Session}

/-- Where a call has panicked in one session, the mended body gives up in the other. -/
theorem resume_mended (hmoves : ∀ name args s, Moves s (callTask name args s).2) {m : Mending}
    {n : Nat} {next : Except TaskError Value → Program} {r r' : Except Fault Value × Session}
    (h : Parallel m n r r') (hn : n ≤ r.2.fleet.history.length)
    (hfresh : r.1 ≠ .error (.error (.execution m.detail)))
    (hnext : ∀ answer, r.1 = answer.mapError Fault.error →
      Parallel m r.2.fleet.history.length ((next answer).run callTask r.2)
        (((next answer).mended m).run callTask (r.2.mended m))) :
    Parallel m n (resume callTask next r)
      (resume callTask (fun answer => if m.isFailure answer then .ofAbort (.failure m.detail)
        else (next answer).mended m) r') := by
  obtain ⟨r, s⟩ := r
  obtain ⟨r', s'⟩ := r'
  obtain ⟨rfl, hanswer⟩ := h
  generalize hlast : (r, s).2.fleet.panicSince? n = last at hanswer
  cases hanswer with
  | ok v => exact (hnext (.ok v) rfl).from_earlier hn hlast (run_moves hmoves _ s)
  | handOver text => exact ⟨rfl, hlast ▸ .handOver text⟩
  | error fault =>
    cases fault with
    | tooDeep => exact ⟨rfl, hlast ▸ .error .tooDeep⟩
    | error e =>
      have hgoes : m.isFailure (.error e) = false := by
        cases e with
        | execution detail =>
          refine decide_eq_false ?_
          rintro rfl
          exact hfresh rfl
        | _ => rfl
      simp only [Fault.mended, resume, hgoes]
      exact (hnext (.error e) rfl).from_earlier hn hlast (run_moves hmoves _ s)
    | panic text =>
      have hstands : Stands m id none (.error (.panic text) : Except Fault Value)
        (.error (Fault.mended m (.panic text))) := .error _
      revert hstands
      simp only [Fault.mended]
      split
      · intro hstands
        have hfailure : m.isFailure (.error (.execution m.detail)) = true := decide_eq_true rfl
        simp only [resume, hfailure]
        exact ⟨rfl, hlast ▸ hstands⟩
      · intro hstands
        exact ⟨rfl, hlast ▸ hstands⟩

theorem mapError_error_injective :
    Function.Injective (Except.mapError Fault.error : Except TaskError Value → _) := by
  rintro (e | v) (e' | v') h <;> cases h <;> rfl

theorem eventually_ne_execution (r : Except Fault Value) :
    ∀ᶠ detail in cofinite, r ≠ .error (.error (.execution detail)) := by
  by_cases hfails : ∃ text, r = .error (.error (.execution text))
  · obtain ⟨text, rfl⟩ := hfails
    filter_upwards [eventually_cofinite_ne text] with detail hne heq
    cases heq
    exact hne rfl
  · exact .of_forall fun detail heq => hfails ⟨detail, heq⟩

/-- **A body and the mended one go the same way,** if the calls in it do. -/
theorem run_mended (hmoves : ∀ name args s, Moves s (callTask name args s).2)
    (hcall : ∀ name args (s : Session), s.Blind → ∀ᶠ detail in cofinite,
      let m : Mending := ⟨covers, detail⟩
      Parallel m s.fleet.history.length (callTask name args s)
        (callTask name (args.mended m) (s.mended m)))
    (p : Program) (hs : s.Blind) : ∀ᶠ detail in cofinite,
      let m : Mending := ⟨covers, detail⟩
      Parallel m s.fleet.history.length (p.run callTask s)
        ((p.mended m).run callTask (s.mended m)) := by
  induction p generalizing s with
  | done r => exact .of_forall fun detail => .of_done r
  | call task args next ih =>
    have hblind := hs.moves (hmoves task args s)
    have hgrows := (hmoves task args s).extends.history.length_le
    have hcalled := hcall task args s hs
    simp only [Program.mended, run_call]
    generalize callTask task args s = answered at hblind hgrows hcalled ⊢
    have hnext : ∀ᶠ detail in cofinite, ∀ answer, answered.1 = answer.mapError Fault.error →
        let m : Mending := ⟨covers, detail⟩
        Parallel m answered.2.fleet.history.length ((next answer).run callTask answered.2)
          (((next answer).mended m).run callTask (answered.2.mended m)) := by
      by_cases hgoes : ∃ answer : Except TaskError Value, answered.1 = answer.mapError Fault.error
      · obtain ⟨answer, hanswer⟩ := hgoes
        filter_upwards [ih answer hblind] with detail hnext answer' hanswer'
        cases mapError_error_injective (hanswer.symm.trans hanswer')
        exact hnext
      · exact .of_forall fun detail answer hanswer => absurd ⟨answer, hanswer⟩ hgoes
    filter_upwards [hcalled, hnext, eventually_ne_execution answered.1]
      with detail hpar hnext hfresh
    exact resume_mended hmoves hpar hgrows hfresh hnext

end

theorem callNamed_mended {callTask : TaskId → Args → Session → Except Fault Value × Session}
    (hcall : ∀ i args (s : Session), s.Blind → ∀ᶠ detail in cofinite,
      let m : Mending := ⟨covers, detail⟩
      Parallel m s.fleet.history.length (callTask i args s)
        (callTask i (args.mended m) (s.mended m)))
    (name : String) (args : Args) (s : Session) (hs : s.Blind) : ∀ᶠ detail in cofinite,
      let m : Mending := ⟨covers, detail⟩
      Parallel m s.fleet.history.length (callNamed callTask name args s)
        (callNamed callTask name (args.mended m) (s.mended m)) := by
  have hnames (m : Mending) : (s.mended m).names = s.names := rfl
  simp only [callNamed, hnames]
  cases s.names.get? name with
  | none => exact .of_forall fun detail => .of_refused rfl
  | some i => exact hcall i args s hs

/-- **A call and the mended one go the same way,** for all but a few texts of the failure. -/
theorem callWithin_mended (depth : Nat) (i : TaskId) (args : Args) (hs : s.Blind) :
    ∀ᶠ detail in cofinite,
      let m : Mending := ⟨covers, detail⟩
      Parallel m s.fleet.history.length (callWithin depth i args s)
        (callWithin depth i (args.mended m) (s.mended m)) := by
  induction depth generalizing i args s with
  | zero => exact .of_forall fun detail => .of_refused rfl
  | succ depth ih =>
    simp only [callWithin, task?_mended]
    cases ht : s.task? i with
    | none => exact .of_forall fun detail => .of_refused rfl
    | some t =>
      have hblind := hs.moves (enter_moves ht args)
      have hgrows := (enter_moves ht args).extends.history.length_le
      have hway (detail : String) := enter_mended ⟨covers, detail⟩ hs ht args
      simp only [Option.map_some, callInScope_eq_enter]
      generalize s.enter i t args = entered at hblind hgrows hway ⊢
      obtain ⟨landing, s'⟩ := entered
      cases landing with
      | ended r =>
        refine .of_forall fun detail => ?_
        obtain ⟨landing', hentered, hlanding⟩ := hway detail
        dsimp only
        rw [hentered]
        generalize hlast : (Landing.ended r, s').2.fleet.panicSince? s.fleet.history.length =
          last at hlanding
        cases hlanding with
        | ended hr => exact ⟨rfl, hlast ▸ hr⟩
      | body program =>
        filter_upwards [run_mended (callNamed_moves (callWithin_moves depth))
          (callNamed_mended fun i args _ => ih i args) program hblind] with detail hrun
        obtain ⟨landing', hentered, hlanding⟩ := hway detail
        rw [hentered]
        generalize hlast : (Landing.body program, s').2.fleet.panicSince? s.fleet.history.length =
          last at hlanding
        cases hlanding
        exact hrun.from_earlier hgrows hlast
          (run_moves (callNamed_moves (callWithin_moves depth)) program s')

/-! ## Commands -/

theorem Blind.perform (hs : s.Blind) {c : Command} (hc : ∀ name d, c = .declare name d → d.Blind) :
    (s.perform c).Blind := by
  have hsame (htasks : (s.perform c).tasks = s.tasks) : (s.perform c).Blind := by
    intro i d hd
    rw [declared?, task?, htasks] at hd
    exact hs i d hd
  cases c with
  | addEngine e => exact hsame rfl
  | setRole next =>
    refine hsame ?_
    simp only [Session.perform, setRole]
    split <;> rfl
  | startSubmitter engine =>
    refine hsame ?_
    simp only [Session.perform, startSubmitter, moveTo]
    split <;> rfl
  | startWorker =>
    refine hsame ?_
    simp only [Session.perform, startWorker, moveTo]
    split <;> rfl
  | stop => exact hsame rfl
  | call i args depth => exact hs.moves (callWithin_moves depth i args s)
  | declare name d =>
    intro i d' hd'
    obtain ⟨t, ht, rfl⟩ := Option.map_eq_some_iff.1 hd'
    have ht : (s.tasks ++ [.new d])[i]? = some t := ht
    obtain hlt | hge := Nat.lt_or_ge i s.tasks.length
    · rw [List.getElem?_append_left hlt] at ht
      exact hs i _ (Option.map_eq_some_iff.2 ⟨t, ht, rfl⟩)
    · rw [List.getElem?_append_right hge] at ht
      obtain rfl := List.mem_singleton.1 (List.mem_of_getElem? ht)
      exact hc name d rfl

/-- A command that is no call does the same to the mended session. -/
theorem perform_mended (m : Mending) (s : Session) {c : Command}
    (hc : ∀ i args depth, c ≠ .call i args depth) :
    (s.mended m).perform (c.mended m) = (s.perform c).mended m := by
  have hcontext : (s.mended m).context = s.context := rfl
  cases c with
  | addEngine e => simp [perform, Command.mended, addEngine, Fleet.add, mended, Fleet.mended]
  | setRole next =>
    simp only [perform, Command.mended, setRole, hcontext]
    split <;> rfl
  | startSubmitter engine =>
    simp only [perform, Command.mended, startSubmitter, moveTo, hcontext]
    split <;> rfl
  | startWorker =>
    simp only [perform, Command.mended, startWorker, moveTo, hcontext]
    split <;> rfl
  | stop => rfl
  | declare name d =>
    have hnew : Task.new (d.mended m) = (Task.new d).mended m := by
      simp [Task.new, Task.mended, Declaration.mended, Function.comp_def]
    simp [perform, Command.mended, declare, mended, hnew]
  | call i args depth => exact absurd rfl (hc i args depth)

/-- **A mended run goes the same way,** for all but a few texts of the failure: it leaves the mended
session, and what its calls answer stands for what the others answer. -/
theorem performAll_mended (commands : List Command) (hs : s.Blind)
    (hblind : ∀ name d, .declare name d ∈ commands → d.Blind) :
    ∀ᶠ detail in cofinite,
      let m : Mending := ⟨covers, detail⟩
      (s.mended m).performAll (commands.map (Command.mended m)) =
        (s.performAll commands).mended m ∧
      ∀ before i args depth after, commands = before ++ .call i args depth :: after →
        Parallel m (s.performAll before).fleet.history.length
          (callWithin depth i args (s.performAll before))
          (callWithin depth i (args.mended m)
            ((s.mended m).performAll (before.map (Command.mended m)))) := by
  induction commands generalizing s with
  | nil =>
    refine .of_forall fun detail => ⟨rfl, ?_⟩
    intro before i args depth after h
    cases before <;> cases h
  | cons c rest ih =>
    have hrest := ih (hs.perform (c := c) fun name d h => hblind name d (by simp [h]))
      fun name d h => hblind name d (List.mem_cons_of_mem _ h)
    have hfirst : ∀ᶠ detail in cofinite, let m : Mending := ⟨covers, detail⟩
        (s.mended m).perform (c.mended m) = (s.perform c).mended m ∧
        ∀ i args depth, c = .call i args depth →
          Parallel m s.fleet.history.length (callWithin depth i args s)
            (callWithin depth i (args.mended m) (s.mended m)) := by
      by_cases hc : ∃ i args depth, c = .call i args depth
      · obtain ⟨i, args, depth, rfl⟩ := hc
        filter_upwards [callWithin_mended depth i args hs] with detail hpar
        refine ⟨hpar.session, ?_⟩
        rintro _ _ _ ⟨⟩
        exact hpar
      · exact .of_forall fun detail =>
          ⟨perform_mended _ s fun i args depth h => hc ⟨i, args, depth, h⟩,
            fun i args depth h => absurd ⟨i, args, depth, h⟩ hc⟩
    filter_upwards [hfirst, hrest] with detail ⟨hperform, hcall⟩ hlater
    dsimp only at hlater
    rw [← hperform] at hlater
    refine ⟨hlater.1, ?_⟩
    intro before i args depth after hsplit
    cases before with
    | nil =>
      cases hsplit
      exact hcall i args depth rfl
    | cons c' before =>
      cases hsplit
      exact hlater.2 before i args depth after rfl

end Session
end TaskStack
