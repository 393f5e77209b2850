import TaskStack.Proofs.Engine.Cells
import TaskStack.Proofs.Session.Definitions
import TaskStack.Proofs.Session.Terms

/-!
# Calls that have nothing to do with each other

A call of a task whose body calls no other is a dialogue with the engine, and then it is over. With
a local engine it is a dialogue with the ledger: under the signatures of its task and derived tasks
it reads and writes the cells of the ledger, and it leaves the other cells, the other engines and
the other tasks alone. So two calls under different signatures do not see each other, and it does
not matter which of them comes first.

**Theorem (`callWithin_comm`).** In a submitter with a local engine, calls of two tasks that have
built-in layers, bodies without calls, and no signature in common give the same answers in either
order, and leave the same tasks and the same ledger but for the order of its descriptors.

* `Dialogue.run_eq_runLocal`: with a local engine a dialogue is one with its ledger.
* `Dialogue.runLocal_comm`: dialogues about different signatures commute.
* `Task.within_about`: a call of a task asks about the signatures of its declaration.
-/

namespace TaskStack

namespace Dialogue

variable {α β : Type} {i : EngineId} {S R : String → Prop} {P : α → Prop} {x : Dialogue α}

/-- Only one engine is asked, and only about some signatures. -/
def Terms.about (i : EngineId) (S : String → Prop) : Terms where
  asks engine _ d := engine = i ∧ S d.canonicalSignature
  answers _ := True
  admits _ := True

/-- The outcome of a dialogue with the ledger of a local engine, and the ledger after it. -/
def runLocal : Dialogue α → Ledger → α × Ledger
  | .done a, l => (a, l)
  | .register _ _ d next, l =>
    (next ((l.register d).1.mapError fun x => .error (.handoff x))).runLocal (l.register d).2
  | .submit _ _ d _ args next, l => (next .run).runLocal (l.note d.canonicalSignature args)
  | .body _ _ next, l => next.runLocal l

/-- **With a local engine a dialogue is one with its ledger.** -/
theorem run_eq_runLocal (h : x.Keeps (.about i S) P) {f : Fleet} {e : Engine}
    (he : f.engines[i]? = some e) (hlocal : e.IsLocal) :
    (x.run f).1 = (x.runLocal e.ledger).1 ∧ (x.run f).2.engines =
      f.engines.set i { e with ledger := (x.runLocal e.ledger).2 } := by
  induction x generalizing f e with
  | done a =>
    obtain ⟨hlt, rfl⟩ := List.getElem?_eq_some_iff.1 he
    exact ⟨rfl, (List.set_getElem_self hlt).symm⟩
  | register engine origin d next ih =>
    obtain ⟨⟨rfl, -⟩, hnext⟩ := h
    rw [run, Fleet.register_of_isLocal he hlocal]
    obtain ⟨houtcome, hengines⟩ := ih _ (hnext _ trivial)
      (f := (f.setEngine engine { e with ledger := (e.ledger.register d).2 }).log
        (.register engine origin d ((e.ledger.register d).1.mapError fun x => .error (.handoff x))))
      (Fleet.engines_setEngine he _) (hlocal.withLedger _)
    refine ⟨houtcome, hengines.trans ?_⟩
    exact List.set_set ..
  | submit engine origin d schema args next ih =>
    obtain ⟨⟨rfl, -⟩, hnext⟩ := h
    rw [run, Fleet.submit_of_isLocal he hlocal]
    obtain ⟨houtcome, hengines⟩ := ih _ (hnext .run trivial)
      (f := (f.setEngine engine { e with ledger := e.ledger.note d.canonicalSignature args }).log
        (.submit engine origin d schema args))
      (Fleet.engines_setEngine he _) (hlocal.withLedger _)
    refine ⟨houtcome, hengines.trans ?_⟩
    exact List.set_set ..
  | body id role next ih => exact ih h (f := f.log (.body id role)) he hlocal

/-- A dialogue sees the cells that it asks about, and no others. -/
theorem runLocal_congr (h : x.Keeps (.about i S) P) {l l' : Ledger}
    (hS : ∀ signature, S signature → l.cell signature = l'.cell signature) :
    (x.runLocal l).1 = (x.runLocal l').1 ∧ ∀ signature, S signature →
      (x.runLocal l).2.cell signature = (x.runLocal l').2.cell signature := by
  induction x generalizing l l' with
  | done a => exact ⟨rfl, hS⟩
  | register engine origin d next ih =>
    obtain ⟨⟨-, hd⟩, hnext⟩ := h
    rw [runLocal, runLocal, (Ledger.register_local (hS _ hd)).1]
    exact ih _ (hnext _ trivial) fun signature hsignature =>
      Ledger.cell_register_congr (hS _ hd) (hS _ hsignature)
  | submit engine origin d schema args next ih =>
    exact ih _ (h.2 .run trivial) fun signature hsignature =>
      Ledger.cell_note_congr args (hS _ hsignature)
  | body id role next ih => exact ih h hS

/-- A dialogue leaves the cells that it does not ask about. -/
theorem cell_runLocal (h : x.Keeps (.about i S) P) (l : Ledger) {signature : String}
    (hsignature : ¬ S signature) : (x.runLocal l).2.cell signature = l.cell signature := by
  induction x generalizing l with
  | done a => rfl
  | register engine origin d next ih =>
    obtain ⟨⟨-, hd⟩, hnext⟩ := h
    refine (ih _ (hnext _ trivial) _).trans (Ledger.cell_register_of_ne ?_)
    rintro rfl
    exact hsignature hd
  | submit engine origin d schema args next ih =>
    obtain ⟨⟨-, hd⟩, hnext⟩ := h
    refine (ih _ (hnext .run trivial) _).trans (Ledger.cell_note_of_ne args ?_)
    rintro rfl
    exact hsignature hd
  | body id role next ih => exact ih h l

/-- **Dialogues about different signatures commute.** -/
theorem runLocal_comm {y : Dialogue β} {P' : β → Prop} (hx : x.Keeps (.about i S) P)
    (hy : y.Keeps (.about i R) P') (hSR : ∀ signature, S signature → ¬ R signature) (l : Ledger) :
    (x.runLocal (y.runLocal l).2).1 = (x.runLocal l).1 ∧
      (y.runLocal (x.runLocal l).2).1 = (y.runLocal l).1 ∧
      ∀ signature, (y.runLocal (x.runLocal l).2).2.cell signature =
        (x.runLocal (y.runLocal l).2).2.cell signature := by
  have hS : ∀ signature, S signature → (y.runLocal l).2.cell signature = l.cell signature :=
    fun signature h => cell_runLocal hy l (hSR signature h)
  have hR : ∀ signature, R signature → (x.runLocal l).2.cell signature = l.cell signature :=
    fun signature h => cell_runLocal hx l fun h' => hSR signature h' h
  obtain ⟨hxl, hxcell⟩ := runLocal_congr hx hS
  obtain ⟨hyl, hycell⟩ := runLocal_congr hy hR
  refine ⟨hxl, hyl, ?_⟩
  intro signature
  by_cases hs : S signature
  · rw [cell_runLocal hy _ (hSR signature hs), hxcell signature hs]
  · rw [cell_runLocal hx _ hs]
    by_cases hr : R signature
    · exact hycell signature hr
    · rw [cell_runLocal hy _ hr, cell_runLocal hx _ hs, cell_runLocal hy _ hr]

end Dialogue

/-! ## What a call asks about -/

def Layer.specs : Layer → List Transform
  | .transformation specs => specs
  | _ => []

namespace Declaration

/-- The body looks at its arguments and calls no task. -/
def CallsNone (d : Declaration) : Prop := ∀ b, ∃ r, d.body b = .done r

/-- The signatures under which a call asks its engine: the one of the task, and those of its derived
tasks, with the transformations that the call brings along. -/
def callSignatures (d : Declaration) (args : Args) : List String :=
  let derived := (d.layers.flatMap Layer.specs ++ args.transforms).filter (!·.workflow)
  d.signature :: derived.map fun u => Derived.signature d.info u.param

end Declaration

namespace Session

variable {s : Session} {id : TaskId} {t : Task} {o : Origin} {d : TaskDescriptor}

/-- What is remembered in a run is what the layers make of the task, or the descriptor of the
derived task. -/
theorem Reaches.describes_of_remembers (h : ({} : Session).Reaches s) (hr : s.Remembers o d) :
    s.Describes o d := by
  have htaken : ∀ o d, s.Remembers o d →
      ∃ engine, .register engine o d (.ok ()) ∈ s.fleet.history := by
    refine h.keeps (I := fun s => ∀ o d, s.Remembers o d →
      ∃ engine, .register engine o d (.ok ()) ∈ s.fleet.history) ?_ ?_ ?_
    · intro s s' hmove hs o d hr
      obtain hr | ⟨engine, -, heq⟩ := hmove.remembers hr
      · obtain ⟨engine, hmem⟩ := hs o d hr
        exact ⟨engine, hmove.extends.history.mem hmem⟩
      · exact ⟨engine, heq ▸ List.mem_cons_self⟩
    · intro s s' hprep hs o d hr
      rw [hprep.history]
      exact hs o d (hprep.remembers hr)
    · intro o d hr
      cases o with
      | task id =>
        obtain ⟨t, r, ht, -⟩ := hr
        cases ht
      | derived id index param =>
        obtain ⟨t, ht, -⟩ := hr
        cases ht
      | other => exact hr.elim
  obtain ⟨engine, hmem⟩ := htaken o d hr
  exact h.describes engine o d _ hmem

end Session

namespace Task

open Dialogue

variable {s : Session} {id : TaskId} {t : Task} {i : EngineId}

/-- **A call of a task asks about the signatures of its declaration.** -/
theorem within_about (hs : ({} : Session).Reaches s) (ht : s.task? id = some t)
    (hb : t.declaration.BuiltIn) (he : s.scope.engine = some i) (args : Args) :
    t.Within id s.scope (.about i (· ∈ t.declaration.callSignatures args)) (fun _ => True)
      (Derived.signature t.declaration.info · ∈ t.declaration.callSignatures args) where
  asks engine r he' hr := by
    cases he.symm.trans he'
    refine ⟨rfl, ?_⟩
    have hdescribe : ∃ r', Declaration.describe t.declaration.info t.declaration.layers = .ok r' ∧
        r'.descriptor = r.descriptor := by
      obtain hr | hr := hr
      · obtain ⟨x, r', hx, hr', hd⟩ :=
          hs.describes_of_remembers (o := .task id) ⟨t, r, ht, hr, rfl⟩
        rw [Session.declared?, ht] at hx
        cases hx
        exact ⟨r', hr', hd⟩
      · exact ⟨r, hr, rfl⟩
    obtain ⟨r', hr', hd⟩ := hdescribe
    have hsignature := hb.canonicalSignature (Declaration.canonicalSignature?_of_describe hr')
    rw [hd] at hsignature
    rw [hsignature]
    exact List.mem_cons_self
  poisoned _ := trivial
  describe _ _ := trivial
  derived index := by
    constructor
    · intro engine param d he' hparam hd
      cases he.symm.trans he'
      refine ⟨rfl, ?_⟩
      have hdescribe : d = Derived.descriptor t.declaration.info param := by
        obtain hd | hd := hd
        · obtain ⟨x, hx, hd'⟩ :=
            hs.describes_of_remembers (o := .derived id index param) ⟨t, ht, hd⟩
          rw [Session.declared?, ht] at hx
          cases hx
          exact hd'.symm
        · exact hd
      rw [hdescribe]
      exact hparam
    · exact fun _ => trivial
  specs specs hmem u hu hworkflow := by
    refine List.mem_cons_of_mem _ (List.mem_map.2 ⟨u, ?_, rfl⟩)
    have hspecs : u ∈ t.declaration.layers.flatMap Layer.specs :=
      List.mem_flatMap.2 ⟨_, hmem, hu⟩
    simp [hspecs, hworkflow]
  custom c hmem := by
    cases hb.layers _ hmem

theorem about_of_brought (d : Declaration) (args : Args) :
    Transform.About (Derived.signature d.info · ∈ d.callSignatures args) args.transforms := by
  intro u hu hworkflow
  refine List.mem_cons_of_mem _ (List.mem_map.2 ⟨u, ?_, rfl⟩)
  simp [hu, hworkflow]

/-- The dialogue of a call that may not nest deeper than a bound. -/
def dialogueWithin (depth : Nat) (id : TaskId) (scope : Scope) (args : Args) (t : Task) :
    Dialogue (Session.Landing × Task) :=
  match depth with
  | 0 => .done (.ended (.error .tooDeep), t)
  | _ + 1 => t.dialogue id scope args

theorem dialogueWithin_about (hs : ({} : Session).Reaches s) (ht : s.task? id = some t)
    (hb : t.declaration.BuiltIn) (he : s.scope.engine = some i) (args : Args) (depth : Nat) :
    (t.dialogueWithin depth id s.scope args).Keeps
      (.about i (· ∈ t.declaration.callSignatures args)) fun _ => True := by
  have hT : (Terms.about i (· ∈ t.declaration.callSignatures args)).Allow fun _ => True :=
    ⟨fun _ _ _ _ => trivial, fun _ _ _ _ => trivial, trivial, fun _ => trivial, fun _ => trivial⟩
  cases depth with
  | zero => trivial
  | succ depth =>
    exact (dialogue_keeps hT (within_about hs ht hb he args)
      (about_of_brought t.declaration args)).mono fun _ _ => trivial

end Task

namespace Session

variable {s : Session} {id : TaskId} {t : Task}

/-- The answer at the end of the way, if the body calls no task. -/
def Landing.answer : Landing → Except Fault Value
  | .ended result => result
  | .body (.done r) => r.mapError Abort.fault
  | .body (.call ..) => .error .tooDeep

/-- The end of the way is the end of the call. -/
def Landing.Settles (landing : Landing) : Prop :=
  ∀ callTask s, landing.finish callTask s = (landing.answer, s)

theorem settles_ended (result : Except Fault Value) : (Landing.ended result).Settles :=
  fun _ _ => rfl

theorem askLanding_settles {d : Declaration} (hbody : d.CallsNone) (id : TaskId) (scope : Scope)
    (descriptor : Option TaskDescriptor) (args : Args) (f : Fleet) :
    ((Task.askLanding id d scope descriptor args).run f).1.Settles := by
  have hbegun (f : Fleet) : ((Task.askLanding.begun id d scope args).run f).1.Settles := by
    obtain ⟨r, hr⟩ := hbody (Bound.of d.info.schema args.withoutMarkers)
    intro callTask s
    simp only [Task.askLanding.begun, Dialogue.run, hr]
    rfl
  unfold Task.askLanding
  split
  · split
    · exact settles_ended _
    · next engine _ =>
      simp only [Dialogue.run]
      generalize f.submit engine (.task id) _ d.info.schema args = admitted
      obtain ⟨_ | result, f'⟩ := admitted
      · exact hbegun f'
      · exact settles_ended result
  · exact hbegun f

theorem dialogue_settles (hbody : t.declaration.CallsNone) (id : TaskId) (scope : Scope)
    (args : Args) (f : Fleet) : ((t.dialogue id scope args).run f).1.1.Settles := by
  simp only [Task.dialogue, Dialogue.run_bind]
  rcases (t.askRegistration id scope).run f with ⟨⟨fault | descriptor, t'⟩, f'⟩
  · exact settles_ended _
  · simp only [Dialogue.run_bind]
    rcases (t'.askLayers id t.declaration.info scope 0 _ args).run f' with
      ⟨⟨fault | args', t''⟩, f''⟩
    · exact settles_ended _
    · simp only [Dialogue.run_bind, Dialogue.run]
      exact askLanding_settles hbody id scope descriptor args' f''

/-- **A call of a task whose body calls none** is a dialogue, and then it is over. -/
theorem callWithin_of_callsNone (ht : s.task? id = some t) (hbody : t.declaration.CallsNone)
    (depth : Nat) (args : Args) :
    callWithin depth id args s =
      let r := (t.dialogueWithin depth id s.scope args).run s.fleet
      (r.1.1.answer, s.after id r.1.2 r.2) := by
  cases depth with
  | zero => exact Prod.ext rfl (after_self ht s.fleet).symm
  | succ depth =>
    rw [callWithin_eq_dialogue ht]
    exact dialogue_settles hbody id s.scope args s.fleet _ _

/-! ## Two calls -/

/-- Two sessions that differ in the order of the descriptors that an engine has taken, and in the
order of what has happened. -/
structure SameButOrder (i : EngineId) (s s' : Session) : Prop where
  context : s.context = s'.context
  names : s.names = s'.names
  tasks : s.tasks = s'.tasks
  others : ∀ j, j ≠ i → s.engine? j = s'.engine? j
  ledger : ∃ (e : Engine) (l l' : Ledger), s.engine? i = some { e with ledger := l } ∧
    s'.engine? i = some { e with ledger := l' } ∧ l.registrations.Perm l'.registrations ∧
    l.submissions = l'.submissions ∧ l.lastMarkers = l'.lastMarkers ∧
    ∀ signature, l.descriptor? signature = l'.descriptor? signature

theorem ledger_of_cell_eq {l l' : Ledger} (h : ∀ signature, l.cell signature = l'.cell signature) :
    l.registrations.Perm l'.registrations ∧ l.submissions = l'.submissions ∧
      l.lastMarkers = l'.lastMarkers ∧
      ∀ signature, l.descriptor? signature = l'.descriptor? signature := by
  refine ⟨Ledger.perm_of_cell_eq h, ?_, ?_, ?_⟩
  · exact Dict.ext_get? fun signature => congrArg Ledger.Cell.submissions (h signature)
  · exact Dict.ext_get? fun signature => congrArg Ledger.Cell.lastMarkers (h signature)
  · intro signature
    rw [Ledger.descriptor?_eq_head?, Ledger.descriptor?_eq_head?, h]

/-- With a local engine, such a call is a dialogue with the ledger. -/
theorem callWithin_eq_runLocal (ht : s.task? id = some t) (hbody : t.declaration.CallsNone)
    {i : EngineId} {e : Engine} (he : s.engine? i = some e) (hlocal : e.IsLocal) {depth : Nat}
    {args : Args} {S : String → Prop} {P : Landing × Task → Prop}
    (h : (t.dialogueWithin depth id s.scope args).Keeps (.about i S) P) :
    let r := (t.dialogueWithin depth id s.scope args).runLocal e.ledger
    ∃ f, callWithin depth id args s = (r.1.1.answer, s.after id r.1.2 f) ∧
      f.engines = s.fleet.engines.set i { e with ledger := r.2 } := by
  obtain ⟨houtcome, hengines⟩ := Dialogue.run_eq_runLocal h he hlocal
  refine ⟨_, ?_, hengines⟩
  simp only [callWithin_of_callsNone ht hbody, houtcome]

theorem task?_after_of_ne (s : Session) {a b : TaskId} (h : a ≠ b) (t : Task) (f : Fleet) :
    (s.after a t f).task? b = s.task? b :=
  task?_setTask_of_ne { s with fleet := f } t h

/-- So it is after a call of another task, with the ledger that this has left. -/
theorem callWithin_eq_runLocal_after (ht : s.task? id = some t) (hbody : t.declaration.CallsNone)
    {i : EngineId} {e : Engine} (he : s.engine? i = some e) (hlocal : e.IsLocal) {l : Ledger}
    {f : Fleet} (hf : f.engines = s.fleet.engines.set i { e with ledger := l }) {depth : Nat}
    {args : Args} {S : String → Prop} {P : Landing × Task → Prop}
    (h : (t.dialogueWithin depth id s.scope args).Keeps (.about i S) P) {other : TaskId}
    (hne : other ≠ id) (left : Task) :
    let r := (t.dialogueWithin depth id s.scope args).runLocal l
    ∃ f', callWithin depth id args (s.after other left f) =
        (r.1.1.answer, (s.after other left f).after id r.1.2 f') ∧
      f'.engines = s.fleet.engines.set i { e with ledger := r.2 } := by
  have he' : (s.after other left f).engine? i = some { e with ledger := l } := by
    show f.engines[i]? = _
    rw [hf]
    exact Fleet.engines_setEngine he _
  obtain ⟨f', hcall, hf'⟩ :=
    callWithin_eq_runLocal ((s.task?_after_of_ne hne left f).trans ht) hbody
    he' (hlocal.withLedger l) h
  refine ⟨f', hcall, hf'.trans ?_⟩
  show f.engines.set i _ = _
  rw [hf, List.set_set]
  rfl

/-- **Calls that have no signature in common commute.** -/
theorem callWithin_comm (hs : ({} : Session).Reaches s) {i : EngineId} (hi : s.Submits i)
    {e : Engine} (he : s.engine? i = some e) (hlocal : e.IsLocal) {a b : TaskId} {ta tb : Task}
    (hta : s.task? a = some ta) (htb : s.task? b = some tb) (hne : a ≠ b)
    (ha : ta.declaration.BuiltIn) (hb : tb.declaration.BuiltIn)
    (hbodya : ta.declaration.CallsNone) (hbodyb : tb.declaration.CallsNone) {argsa argsb : Args}
    (hapart : ∀ signature ∈ ta.declaration.callSignatures argsa,
      signature ∉ tb.declaration.callSignatures argsb) (n m : Nat) :
    (callWithin n a argsa (callWithin m b argsb s).2).1 = (callWithin n a argsa s).1 ∧
      (callWithin m b argsb (callWithin n a argsa s).2).1 = (callWithin m b argsb s).1 ∧
      SameButOrder i (callWithin m b argsb (callWithin n a argsa s).2).2
        (callWithin n a argsa (callWithin m b argsb s).2).2 := by
  have hx := Task.dialogueWithin_about hs hta ha hi.engine argsa n
  have hy := Task.dialogueWithin_about hs htb hb hi.engine argsb m
  obtain ⟨hxl, hyl, hcells⟩ := Dialogue.runLocal_comm hx hy hapart e.ledger
  obtain ⟨fa, hcalla, hfa⟩ := callWithin_eq_runLocal hta hbodya he hlocal hx
  obtain ⟨fb, hcallb, hfb⟩ := callWithin_eq_runLocal htb hbodyb he hlocal hy
  rw [hcalla, hcallb]
  generalize (ta.dialogueWithin n a s.scope argsa).runLocal e.ledger = ra at hxl hyl hcells hfa ⊢
  generalize (tb.dialogueWithin m b s.scope argsb).runLocal e.ledger = rb at hxl hyl hcells hfb ⊢
  obtain ⟨fab, hcallab, hfab⟩ :=
    callWithin_eq_runLocal_after htb hbodyb he hlocal hfa hy hne ra.1.2
  obtain ⟨fba, hcallba, hfba⟩ :=
    callWithin_eq_runLocal_after hta hbodya he hlocal hfb hx hne.symm rb.1.2
  rw [hcallab, hcallba]
  obtain ⟨hperm, hsubmissions, hmarkers, hheld⟩ := ledger_of_cell_eq hcells
  refine ⟨congrArg (·.1.answer) hxl, congrArg (·.1.answer) hyl, ?_⟩
  rw [hxl, hyl]
  constructor
  · rfl
  · rfl
  · exact List.set_comm _ _ hne
  · intro j hj
    show fab.engines[j]? = fba.engines[j]?
    rw [hfab, hfba, List.getElem?_set_ne hj.symm, List.getElem?_set_ne hj.symm]
  · refine ⟨e, _, _, ?_, ?_, hperm, hsubmissions, hmarkers, hheld⟩
    · show fab.engines[i]? = _
      rw [hfab]
      exact Fleet.engines_setEngine he _
    · show fba.engines[i]? = _
      rw [hfba]
      exact Fleet.engines_setEngine he _

/-- A task with a derived task and the idle one are called in either order, and the engine takes
three descriptors in another order. -/
theorem callWithin_comm_cut :
    let s := ({} : Session).performAll
      [.addEngine {}, .declare "cut" cut, .declare "idle" idle, .startSubmitter 0]
    let both := (callWithin 1 1 {} (callWithin 1 0 (.ofPositional [.null]) s).2).2
    let both' := (callWithin 1 0 (.ofPositional [.null]) (callWithin 1 1 {} s).2).2
    SameButOrder 0 both both' ∧
      (both.engine? 0).map (·.ledger.registrations.map (·.canonicalSignature)) =
        some ["demo.cut", "demo.cut.x_transform", "demo.idle"] ∧
      (both'.engine? 0).map (·.ledger.registrations.map (·.canonicalSignature)) =
        some ["demo.idle", "demo.cut", "demo.cut.x_transform"] := by
  intro s both both'
  have hs : ({} : Session).Reaches s := .performAll .refl _
  have hidle : idle.BuiltIn := ⟨rfl, by simp [idle, Layer.isBuiltIn]⟩
  have hapart : ∀ signature ∈ cut.callSignatures (.ofPositional [.null]),
      signature ∉ idle.callSignatures {} := by decide
  have hta : s.task? 0 = some (.new cut) := rfl
  have htb : s.task? 1 = some (.new idle) := rfl
  obtain ⟨-, -, hsame⟩ := callWithin_comm hs ⟨rfl, rfl⟩ rfl ⟨rfl, rfl, rfl⟩ hta htb (by decide)
    cut_builtIn hidle (fun _ => ⟨_, rfl⟩) (fun _ => ⟨_, rfl⟩) hapart 1 1
  exact ⟨hsame, by decide +kernel, by decide +kernel⟩

end Session
end TaskStack
