import TaskStack.Proofs.Session.Parallel
import TaskStack.Proofs.Session.Poison

/-!
# What panics damage

Engines, transformations and bodies may panic, and whoever drives the calls may catch it and go on.
The panic of an engine that is handed a descriptor poisons the lock under which it was handed over,
that of the task or that of the layer, for good. Any other panic has gone when it is caught: what
follows is what would have followed a failure.

**Theorem (`panics_damage`).** The two locks answer as the history says, a task whose hand-over has
panicked is closed to submitters and open to all others, engines that act by themselves know no
panic, and a run in which all other panics are failures goes the same way.

* `TaskLock`, `Reaches.taskLock`: the lock of a task.
* `LayerLock`, `Reaches.layerLock`: the lock of a layer.
* `Untouched`, `Reaches.untouched`: engines that act by themselves.
-/

namespace TaskStack.Session

variable {s s' : Session} {id : TaskId} {t : Task} {index : Nat} {specs : List Transform}

theorem Reaches.trans {s'' : Session} (h : s.Reaches s') (h' : s'.Reaches s'') :
    s.Reaches s'' := by
  induction h' with
  | refl => exact h
  | move _ hmove ih => exact ih.move hmove
  | perform c _ ih => exact ih.perform c

/-! ## The lock of a task -/

/-- What the lock of a task does at a point of a run. -/
structure TaskLock (s : Session) (id : TaskId) (t : Task) : Prop where
  /-- After the panic of the hand-over every call of a submitter ends at the lock. -/
  closed : s.context.role = .submitter → s.Panicked ⟨id, none⟩ →
    ∀ depth args, callWithin (depth + 1) id args s = (.error poisonedRegistration, s)
  /-- The answer of the lock is given after that panic only, or by somebody else. -/
  reason : s.context.role = .submitter → ∀ depth args,
    (callWithin (depth + 1) id args s).1 = .error poisonedRegistration →
      s.Panicked ⟨id, none⟩ ∨ s.MaySay t.declaration.layers (.poisoned "registro de la tarea")
  /-- The task is not handed over any more. -/
  pending : s.Panicked ⟨id, none⟩ → ∀ s', s.Reaches s' → s'.handedOver? id = none
  /-- Outside of a submitter the body runs all the same. -/
  opened : s.context.role ≠ .submitter →
    (s.context.role = .worker → LetsThrough t.declaration.info t.declaration.layers) →
    ∀ depth args, ∃ b, callWithin (depth + 1) id args s = (t.declaration.body b).run
        (callNamed (callWithin depth)) { s with fleet := s.fleet.log (.body id s.context.role) } ∧
      (s.context.role = .unset ∨ (∀ l ∈ t.declaration.layers, l.isBuiltIn = true) →
        b = Bound.of t.declaration.info.schema args.withoutMarkers)

theorem Reaches.taskLock (hs : ({} : Session).Reaches s) (ht : s.task? id = some t) :
    s.TaskLock id t := by
  have htells : t.registration = .poisoned ↔ s.Panicked ⟨id, none⟩ := by
    rw [← hs.locksTell, poisoned_iff ht, Task.Poisoned]
  refine ⟨?_, ?_, ?_, fun hrole hlayers => callWithin_of_not_submitter ht hrole hlayers⟩
  · intro hrole hpanicked
    exact callWithin_of_poisoned ht hrole (htells.2 hpanicked)
  · intro _ depth args h
    rw [← htells]
    exact reason_of_callWithin ht h
  · intro hpanicked s' hlater
    obtain ⟨t', ht', hpoisoned⟩ := ((hs.trans hlater).locksTell _).2 (hlater.panicked hpanicked)
    rw [handedOver?, ht', Option.bind_some, show t'.registration = .poisoned from hpoisoned]
    rfl

/-! ## The lock of a layer -/

/-- What the lock of a transformation layer does to a call that has come to the layer. -/
structure LayerLock (s : Session) (id : TaskId) (t : Task) (index : Nat) (specs : List Transform)
    (args : Args) : Prop where
  /-- After the panic of a hand-over of the layer, every transformation that the engine is to apply
  ends at the lock. -/
  closed : ∀ u v y engine,
    (s.passage id t index).ComesTo specs ⟨args, t.derivedAt index, s.fleet⟩ u v y →
    u.workflow = false → s.context.engine = some engine →
    (s.amid id t index y).Panicked ⟨id, some index⟩ →
      (s.passage id t index).transform u v y = (.error poisonedDerived, y)
  /-- The answer of the lock is given after such a panic only, or by the engine, and never at a
  transformation that is applied in process. -/
  reason : ∀ u v y,
    (s.passage id t index).ComesTo specs ⟨args, t.derivedAt index, s.fleet⟩ u v y →
    ((s.passage id t index).transform u v y).1 = .error poisonedDerived →
      u.workflow = false ∧ ∃ engine, s.context.engine = some engine ∧
        ((s.amid id t index y).Panicked ⟨id, some index⟩ ∨
          y.fleet.MaySay engine (.poisoned "transformaciones derivadas"))
  /-- The layer gives the answer if one of its transformations does. -/
  layer : (s.beforeLayer id t.declaration.info s.scope index (.transformation specs) args).1 =
      .error poisonedDerived ↔
    ∃ u v y, (s.passage id t index).ComesTo specs ⟨args, t.derivedAt index, s.fleet⟩ u v y ∧
      ((s.passage id t index).transform u v y).1 = .error poisonedDerived

theorem Reaches.layerLock (hs : ({} : Session).Reaches s) (ht : s.task? id = some t)
    (hlayer : t.declaration.layers[index]? = some (.transformation specs))
    (hrole : s.context.role = .submitter) (args : Args) : s.LayerLock id t index specs args := by
  refine ⟨?_, ?_, ?_⟩
  · intro u v y engine hcomes hu he hpanicked
    exact Passage.transform_of_poisoned he hu
      ((poisoned_of_comesTo hs ht hlayer hrole hcomes).2 hpanicked) v
  · intro u v y hcomes h
    obtain ⟨hu, engine, he, hsay⟩ := Passage.reason_of_transform h
    exact ⟨hu, engine, he, hsay.imp_left (poisoned_of_comesTo hs ht hlayer hrole hcomes).1⟩
  · have hbefore :
        (s.beforeLayer id t.declaration.info s.scope index (.transformation specs) args).1 =
          ((s.passage id t index).beforeCall specs ⟨args, t.derivedAt index, s.fleet⟩).1 := by
      simp only [beforeLayer, ht]
      rfl
    rw [hbefore]
    constructor
    · intro h
      obtain ⟨e, he⟩ | ⟨u, v, y, hcomes, hu⟩ := Passage.beforeCall_eq_error (Prod.ext h rfl)
      · cases he
      · exact ⟨u, v, y, hcomes, congrArg Prod.fst hu⟩
    · rintro ⟨u, v, y, hcomes, hu⟩
      rw [Passage.beforeCall_of_comesTo hrole hcomes (Prod.ext hu rfl)]

/-! ## Engines that act by themselves -/

/-- An engine that acts by itself never speaks of a poisoned lock, and lets every submission run. -/
structure Untouched (s : Session) (engine : EngineId) : Prop where
  register : ∀ o d lock,
    (s.fleet.register engine o d).1 ≠ .error (.error (.handoff (.poisoned lock)))
  submit : ∀ o d schema args, (s.fleet.submit engine o d schema args).1 = .run
  reason : ∀ x, ¬ s.fleet.MaySay engine x

theorem Reaches.untouched (hs : ({} : Session).Reaches s) {e : Engine} (hlocal : e.IsLocal)
    (hempty : e.ledger.registrations = []) (hlater : (s.perform (.addEngine e)).Reaches s') :
    s'.Untouched s.fleet.engines.length := by
  obtain ⟨e', he', hlocal', -⟩ := hlater.holdsTaken (addEngine_holdsTaken hs.known hlocal hempty)
  have hreason (x : HandoffError) : ¬ s'.fleet.MaySay s.fleet.engines.length x := by
    rintro ⟨e, he, hsay⟩
    cases he'.symm.trans he
    exact Engine.not_maySay_of_isLocal hlocal' hsay
  refine ⟨?_, ?_, hreason⟩
  · intro o d lock h
    exact hreason _ (Fleet.maySay_of_register h)
  · intro o d schema args
    rw [Fleet.submit_of_isLocal he' hlocal']

/-! ## Runs with panics -/

open Filter (cofinite) in
/-- **What panics damage.** The lock of a task and that of a layer are poisoned by a hand-over that
panicked under them, and by nothing else; no engine is asked any more on account of a task that was
closed so; an engine that acts by itself is not touched; and with failures in place of all the
panics of bodies, transformations and submissions, whichever they are, a run leaves the same session
and answers the same, up to these failures. -/
theorem panics_damage :
    (∀ s id t, ({} : Session).Reaches s → s.task? id = some t → s.TaskLock id t) ∧
    (∀ commands id, Shut id (({} : Session).performAll commands).fleet.history) ∧
    (∀ s id t index specs, ({} : Session).Reaches s → s.task? id = some t →
      t.declaration.layers[index]? = some (.transformation specs) →
      s.context.role = .submitter → ∀ args, s.LayerLock id t index specs args) ∧
    (∀ s s' e, ({} : Session).Reaches s → e.IsLocal → e.ledger.registrations = [] →
      (s.perform (.addEngine e)).Reaches s' → s'.Untouched s.fleet.engines.length) ∧
    ∀ covers commands, (∀ name d, .declare name d ∈ commands → d.Blind) →
      ∀ᶠ detail in cofinite, let m : Mending := ⟨covers, detail⟩
        ({} : Session).performAll (commands.map (Command.mended m)) =
          (({} : Session).performAll commands).mended m ∧
        ∀ before id args depth after, commands = before ++ .call id args depth :: after →
          let s := ({} : Session).performAll before
          Parallel m s.fleet.history.length (callWithin depth id args s)
            (callWithin depth id (args.mended m)
              (({} : Session).performAll (before.map (Command.mended m)))) :=
  ⟨fun _ _ _ hs ht => hs.taskLock ht, performAll_shut,
    fun _ _ _ _ _ hs ht hlayer hrole => hs.layerLock ht hlayer hrole,
    fun _ _ _ hs hlocal hempty hlater => hs.untouched hlocal hempty hlater,
    fun _ commands hblind => performAll_mended (s := {}) commands (fun _ _ h => by cases h) hblind⟩

/-- A task whose body panics. -/
def late : Declaration where
  info := ⟨"demo", "late", {}⟩
  layers := [.task {}]
  body _ := .ofAbort (.panic "late")

/-- An engine panics at the first descriptor and at the third. -/
def frail : List Command :=
  [.addEngine {}, .addEngine { registerScript := [.panic "boom", .byItself, .panic "boom"] },
    .declare "cut" cut, .declare "again" cut, .declare "late" late, .startSubmitter 1,
    .call 0 (.ofPositional [.null]) 1, .call 1 (.ofPositional [.null]) 1]

/-- It has panicked at the descriptor of a task, and at that of a derived task of another. -/
theorem frail_panicked : (({} : Session).performAll frail).Panicked ⟨0, none⟩ ∧
    (({} : Session).performAll frail).Panicked ⟨1, some 0⟩ :=
  ⟨⟨_, .tail _ (.tail _ (.head _)), rfl⟩, ⟨_, .head _, rfl⟩⟩

/-- One task is closed and one layer of another is, the other engine acts as ever, and the panic of
a body is as good as a failure. -/
theorem panics_damage_frail :
    let s := ({} : Session).performAll frail
    (∀ depth args, callWithin (depth + 1) 0 args s = (.error poisonedRegistration, s)) ∧
    (∀ s', s.Reaches s' → s'.handedOver? 0 = none) ∧
    (s.beforeLayer 1 cut.info s.scope 0 (.transformation [⟨"x", fun v _ => .ok v, ∅, false⟩])
      (.ofPositional [.null])).1 = .error poisonedDerived ∧
    s.Untouched 0 ∧
    ∃ detail, (callWithin 1 2 {} (({} : Session).performAll
      (frail.map (Command.mended ⟨fun _ => true, detail⟩)))).1 =
        .error (.error (.execution detail)) := by
  intro s
  obtain ⟨htask, -, hlayer, huntouched, hmended⟩ := panics_damage
  have hs : ({} : Session).Reaches s := Reaches.refl.performAll frail
  obtain ⟨htaskPanicked, hlayerPanicked⟩ := frail_panicked
  have hlock := htask s 0 _ hs rfl
  refine ⟨hlock.closed rfl htaskPanicked, hlock.pending htaskPanicked, ?_, ?_, ?_⟩
  · let u : Transform := ⟨"x", fun v _ => .ok v, ∅, false⟩
    let args : Args := .ofPositional [.null]
    obtain ⟨t, ht, hcut⟩ : ∃ t, s.task? 1 = some t ∧ t.declaration = cut := ⟨_, rfl, rfl⟩
    have hlock := hlayer s 1 t 0 [u] hs ht (hcut ▸ rfl) rfl args
    have hcomes : (s.passage 1 t 0).ComesTo [u] ⟨args, t.derivedAt 0, s.fleet⟩ u .null
        ⟨args, t.derivedAt 0, s.fleet⟩ :=
      ⟨[], [], .positional 0, rfl, rfl, by rw [passage, hcut]; rfl⟩
    have hpoisoned := hlock.closed u .null _ 1 hcomes rfl rfl hlayerPanicked
    rw [← hcut]
    exact hlock.layer.2 ⟨u, .null, _, hcomes, congrArg Prod.fst hpoisoned⟩
  · exact huntouched {} s {} .refl ⟨rfl, rfl, rfl⟩ rfl (Reaches.refl.performAll frail.tail)
  · have hblind : ∀ name d, .declare name d ∈ frail ++ [.call 2 {} 1] → d.Blind := by
      intro name d hmem c hc
      obtain ⟨-, rfl⟩ | ⟨-, rfl⟩ | ⟨-, rfl⟩ : name = "cut" ∧ d = cut ∨ name = "again" ∧ d = cut ∨
          name = "late" ∧ d = late := by simpa [frail] using hmem
      all_goals simp [cut, late] at hc
    obtain ⟨detail, -, hcalls⟩ := (hmended (fun _ => true) (frail ++ [.call 2 {} 1]) hblind).exists
    refine ⟨detail, ?_⟩
    let m : Mending := ⟨fun _ => true, detail⟩
    have hlate : Stands m id none (.error (.panic "late")) (callWithin 1 2 {}
        (({} : Session).performAll (frail.map (Command.mended m)))).1 :=
      (hcalls frail 2 {} 1 [] rfl).answer
    generalize (callWithin 1 2 {} _).1 = answer at hlate ⊢
    cases hlate
    rfl

end TaskStack.Session
