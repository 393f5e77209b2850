import TaskStack.Proofs.Call.Marks
import TaskStack.Proofs.Session.Books
import TaskStack.Proofs.Session.Course
import TaskStack.Proofs.Session.Dialogue

/-!
# What the engine sees of the arguments

On its way down a call gathers the marks of one layer after another, and transformation layers among
them replace values. Neither gets in the way of the other: a parameter is no mark, so a substitution
finds and writes the same under any marks. So the marks can all be put on at the end. What the
engine sees is what the transformation layers alone make of the arguments, under the marks of all
layers laid over those that the caller gave.

**Theorem (`callWithin_sees`).** A call of a submitter makes no submission of a task, or the first
that it makes is its own; and that one carries the values that the transformation layers leave, and
of each mark what the innermost layer has written that has written it, or else the caller.

* `Passage.substitute_overlay`, `Passage.beforeCall_overlay`: a layer under marks.
* `Session.descend_eq_substituteAll`: the marks of all layers, put on at the end.
* `Session.approach_history`, `Session.land_of_submitter`: what is asked on the way.
-/

namespace TaskStack

theorem Schema.Unmarked.of_locate {s : Schema} (h : s.Unmarked) {a : Args} {name : String}
    {found : Site × Value} (hfound : a.locate s name = some found) :
    Marker.isMarker name = false := by
  obtain ⟨site, v⟩ := found
  obtain ⟨index, hindex, -⟩ := Args.locate_eq_some_iff.1 hfound
  exact h.of_position hindex

namespace Passage

variable {p : Passage} {ms : List (String × Value)}

/-! ## A layer under marks -/

/-- A transformation does not look at the arguments. -/
theorem transform_withArgs (p : Passage) (t : Transform) (v : Value) (x : Passing) (args : Args) :
    p.transform t v { x with args } =
      ((p.transform t v x).1, { (p.transform t v x).2 with args }) := by
  simp only [transform_eq_run]

theorem substitute_overlay (hschema : p.info.schema.Unmarked)
    (hms : ∀ m ∈ ms, Marker.isMarker m.1 = true) (ts : List Transform) (x : Passing) :
    p.substitute ts { x with args := x.args.overlay ms } =
      ((p.substitute ts x).1,
        { (p.substitute ts x).2 with args := (p.substitute ts x).2.args.overlay ms }) := by
  induction ts generalizing x with
  | nil => rfl
  | cons t rest ih =>
    have hlocate : (x.args.overlay ms).locate p.info.schema t.param =
        x.args.locate p.info.schema t.param := (Args.agree_overlay hms x.args).locate_eq hschema _
    rw [substitute, substitute]
    dsimp only
    rw [hlocate]
    cases hfound : x.args.locate p.info.schema t.param with
    | none => rfl
    | some found =>
      obtain ⟨site, v⟩ := found
      dsimp only
      -- the answer comes without the arguments, so the marks are still those from before
      rw [transform_withArgs]
      cases ht : p.transform t v x with
      | mk result y =>
        have hargs : y.args = x.args := args_of_transform ht
        cases result with
        | error fault => simp only [hargs]
        | ok w =>
          dsimp only
          rw [Args.replace_overlay hms x.args site (hschema.of_locate hfound), hargs]
          exact ih { y with args := x.args.replace site t.param w }

/-- **A layer does the same under marks.** -/
theorem beforeCall_overlay (hschema : p.info.schema.Unmarked)
    (hms : ∀ m ∈ ms, Marker.isMarker m.1 = true) (specs : List Transform) (x : Passing) :
    p.beforeCall specs { x with args := x.args.overlay ms } =
      ((p.beforeCall specs x).1,
        { (p.beforeCall specs x).2 with args := (p.beforeCall specs x).2.args.overlay ms }) := by
  by_cases hrole : p.scope.role = .submitter
  · rw [beforeCall_of_submitter hrole, beforeCall_of_submitter hrole]
    have hbrought : (x.args.overlay ms).transforms = x.args.transforms := rfl
    dsimp only
    rw [hbrought]
    generalize (if x.args.transforms.isEmpty then specs else x.args.transforms) = inForce
    split
    · rfl
    · exact substitute_overlay hschema hms inForce
        { x with args := { x.args with transforms := [] } }
  · rw [beforeCall_of_not_submitter hrole, beforeCall_of_not_submitter hrole]
    rfl

/-- A layer leaves the marks as they are. -/
theorem Course.markers {ts : List Transform} {x : Passing} {steps : List Step}
    {answer : Except Fault Unit × Passing} (h : p.Course ts x steps answer)
    (hschema : p.info.schema.Unmarked) : answer.2.args.markers = x.args.markers := by
  induction h with
  | done => rfl
  | unknown _ => rfl
  | stop _ ht => rw [args_of_transform ht]
  | step hlocate ht _ ih =>
    rw [ih, Args.markers_replace _ _ (hschema.of_locate hlocate), args_of_transform ht]

theorem markers_beforeCall (hschema : p.info.schema.Unmarked) (specs : List Transform)
    (x : Passing) : (p.beforeCall specs x).2.args.markers = x.args.markers := by
  by_cases hrole : p.scope.role = .submitter
  · obtain ⟨_, hcourse⟩ := beforeCall_course hrole specs x
    exact hcourse.markers hschema
  · rw [beforeCall_of_not_submitter hrole]
    rfl

end Passage

/-- A layer that does nothing to a call, unless it is a transformation layer. -/
def Layer.Quiet : Layer → Prop
  | .custom c => ∀ info role args, c.beforeCall info role args = (.ok (), args)
  | _ => True

namespace Session

variable {s s' : Session} {id : TaskId} {t : Task} {info : TaskInfo} {scope : Scope}
  {ms : List (String × Value)}

/-! ## The way down -/

/-- The way through the transformation layers alone. -/
def substituteAll (id : TaskId) (info : TaskInfo) (scope : Scope) :
    Nat → List Layer → Args → Session → Except Fault Args × Session
  | _, [], args, s => (.ok args, s)
  | index, layer :: rest, args, s =>
    match layer with
    | .transformation specs =>
      match s.beforeLayer id info scope index (.transformation specs) args with
      | (.error fault, _, s) => (.error fault, s)
      | (.ok (), args, s) => substituteAll id info scope (index + 1) rest args s
    | _ => substituteAll id info scope (index + 1) rest args s

/-- What the transformation layers make of the arguments of a call. -/
def substituted (s : Session) (id : TaskId) (t : Task) (args : Args) : Except Fault Args :=
  match s.present id t with
  | (.error fault, _) => .error fault
  | (.ok _, s') =>
    (substituteAll id t.declaration.info s.scope 0 t.declaration.layers args s').1

theorem beforeLayer_overlay (hschema : info.schema.Unmarked)
    (hms : ∀ m ∈ ms, Marker.isMarker m.1 = true) (index : Nat) (specs : List Transform)
    (args : Args) :
    s.beforeLayer id info scope index (.transformation specs) (args.overlay ms) =
      let r := s.beforeLayer id info scope index (.transformation specs) args
      (r.1, r.2.1.overlay ms, r.2.2) := by
  simp only [beforeLayer]
  cases s.task? id with
  | none => rfl
  | some t =>
    have h := Passage.beforeCall_overlay (p := ⟨info, scope, id, index⟩) hschema hms specs
      ⟨args, t.derivedAt index, s.fleet⟩
    simp only [h]

theorem beforeLayer_of_quiet {layer : Layer} (h : layer.Quiet)
    (hlayer : ∀ specs, layer ≠ .transformation specs) (index : Nat) (args : Args) :
    s.beforeLayer id info scope index layer args = (.ok (), args, s) := by
  cases layer with
  | transformation specs => exact absurd rfl (hlayer specs)
  | custom c => simp only [beforeLayer, h info scope.role args]
  | task _ => rfl
  | constraint _ => rfl
  | mpi _ => rfl

theorem substituteAll_of_ne {layer : Layer} (h : ∀ specs, layer ≠ .transformation specs)
    (index : Nat) (rest : List Layer) (args : Args) (s : Session) :
    substituteAll id info scope index (layer :: rest) args s =
      substituteAll id info scope (index + 1) rest args s := by
  cases layer with
  | transformation specs => exact absurd rfl (h specs)
  | task _ => rfl
  | constraint _ => rfl
  | mpi _ => rfl
  | custom _ => rfl

/-- **The marks of all layers can be put on at the end.** -/
theorem descend_eq_substituteAll (hschema : info.schema.Unmarked) {layers : List Layer}
    (hquiet : ∀ l ∈ layers, l.Quiet) (hms : ∀ m ∈ ms, Marker.isMarker m.1 = true) (index : Nat)
    (args : Args) (s : Session) :
    descend id info scope index layers (args.overlay ms) s =
      let r := substituteAll id info scope index layers args s
      (r.1.map (·.overlay (ms ++ marksOf layers)), r.2) := by
  induction layers generalizing ms index args s with
  | nil =>
    have hnone : ms ++ marksOf [] = ms := List.append_nil ms
    rw [descend, substituteAll, hnone]
    rfl
  | cons layer rest ih =>
    obtain ⟨hlayer, hrest⟩ := List.forall_mem_cons.1 hquiet
    have hmarks : ∀ m ∈ ms ++ layer.marks, Marker.isMarker m.1 = true := by
      intro m hm
      exact (List.mem_append.1 hm).elim (hms m) Layer.isMarker_of_mem_marks
    have hall : ms ++ marksOf (layer :: rest) = ms ++ layer.marks ++ marksOf rest := by
      rw [marksOf, List.flatMap_cons, List.append_assoc]
      rfl
    have hbelow (args : Args) (s : Session) :
        descend id info scope (index + 1) rest (layer.mark (args.overlay ms)) s =
          let r := substituteAll id info scope (index + 1) rest args s
          (r.1.map (·.overlay (ms ++ layer.marks ++ marksOf rest)), r.2) := by
      rw [Layer.mark_eq_overlay, ← Args.overlay_append]
      exact ih hrest hmarks (index + 1) args s
    rw [hall, descend]
    by_cases htransformation : ∃ specs, layer = .transformation specs
    · obtain ⟨specs, rfl⟩ := htransformation
      rw [beforeLayer_overlay hschema hms, substituteAll]
      rcases s.beforeLayer id info scope index (.transformation specs) args with
        ⟨fault | u, args', s'⟩
      · rfl
      · exact hbelow args' s'
    · have hne : ∀ specs, layer ≠ .transformation specs := not_exists.1 htransformation
      rw [beforeLayer_of_quiet hlayer hne, substituteAll_of_ne hne]
      exact hbelow args s

/-- Transformation layers leave the marks as they are. -/
theorem markers_substituteAll (hschema : info.schema.Unmarked) {layers : List Layer} {index : Nat}
    {args plain : Args}
    (h : (substituteAll id info scope index layers args s).1 = .ok plain) :
    plain.markers = args.markers := by
  induction layers generalizing index args s with
  | nil =>
    cases h
    rfl
  | cons layer rest ih =>
    by_cases htransformation : ∃ specs, layer = .transformation specs
    · obtain ⟨specs, rfl⟩ := htransformation
      have hmarkers : (s.beforeLayer id info scope index (.transformation specs) args).2.1.markers =
          args.markers := by
        simp only [beforeLayer]
        cases s.task? id with
        | none => rfl
        | some t => exact Passage.markers_beforeCall hschema specs _
      rw [substituteAll] at h
      generalize s.beforeLayer id info scope index (.transformation specs) args = answer
        at h hmarkers
      obtain ⟨fault | u, args', s'⟩ := answer
      · cases h
      · exact (ih h).trans hmarkers
    · rw [substituteAll_of_ne (not_exists.1 htransformation)] at h
      exact ih h

/-- **What a call has at the end of its way down** is what its transformation layers make of the
arguments, under the marks of all layers. -/
theorem approach_args (id : TaskId) (hrole : s.scope.role = .submitter)
    (hschema : t.declaration.info.schema.Unmarked)
    (hquiet : ∀ l ∈ t.declaration.layers, l.Quiet) (args : Args) :
    (s.approach id t args).1.map (·.2) =
      (s.substituted id t args).map (·.overlay (marksOf t.declaration.layers)) := by
  unfold approach substituted
  generalize s.present id t = answer
  obtain ⟨fault | descriptor, s'⟩ := answer
  · rfl
  · have hpassed : passed s.scope.role t.declaration.layers = t.declaration.layers := by
      rw [hrole]
      rfl
    have hnone : ∀ m ∈ ([] : List (String × Value)), Marker.isMarker m.1 = true := by simp
    have hdescend : descend id t.declaration.info s.scope 0 t.declaration.layers args s' =
        let r := substituteAll id t.declaration.info s.scope 0 t.declaration.layers args s'
        (r.1.map (·.overlay (marksOf t.declaration.layers)), r.2) :=
      descend_eq_substituteAll hschema hquiet hnone 0 args s'
    dsimp only
    rw [hpassed, hdescend]
    dsimp only
    cases (substituteAll id t.declaration.info s.scope 0 t.declaration.layers args s').1 <;> rfl

theorem markers_substituted (hschema : t.declaration.info.schema.Unmarked) {args plain : Args}
    (h : s.substituted id t args = .ok plain) : plain.markers = args.markers := by
  unfold substituted at h
  generalize s.present id t = answer at h
  obtain ⟨fault | descriptor, s'⟩ := answer
  · cases h
  · exact markers_substituteAll hschema h

/-! ## What is asked on the way down -/

/-- No engine is asked on the way down to run a task itself. -/
theorem approach_history (ht : s.task? id = some t) (args : Args) :
    ∃ new, (s.approach id t args).2.fleet.history = new ++ s.fleet.history ∧
      ∀ e ∈ new, ∀ signature, e.submitsTask signature = false := by
  obtain ⟨new, hnew⟩ := (s.approach_moves ht args).1.extends.history
  refine ⟨new, hnew.symm, ?_⟩
  intro e he signature
  have hasked : (s.approach id t args).2.asked signature = s.asked signature :=
    ((s.approach_asides ht args).1.asked signature).trans (present_asked signature ht)
  rw [asked, ← hnew, List.countP_append, asked, Nat.add_eq_right, List.countP_eq_zero] at hasked
  exact Bool.eq_false_iff.2 (hasked e he)

/-- The end of the way of a submitter: the call is over and no engine was asked, or one is asked to
run the task. -/
theorem land_of_submitter (id : TaskId) (d : Declaration) {scope : Scope}
    (hrole : scope.role = .submitter) (x : TaskDescriptor) (args : Args) (s : Session) :
    (∃ result, land id d scope (some x) args s = (.ended result, s)) ∨
      ∃ engine later, scope.engine = some engine ∧
        (land id d scope (some x) args s).2.fleet.history =
          later ++ .submit engine (.task id) x d.info.schema args :: s.fleet.history := by
  unfold land
  rw [hrole]
  cases scope.engine with
  | none => exact .inl ⟨_, rfl⟩
  | some engine =>
    dsimp only
    obtain ⟨-, hf⟩ | ⟨admission, engines, hf⟩ :=
      s.fleet.submit_cases engine (.task id) x d.info.schema args
    · rw [hf]
      exact .inl ⟨_, rfl⟩
    · rw [hf]
      cases admission with
      | settled result => exact .inr ⟨engine, [], rfl, rfl⟩
      | run => exact .inr ⟨engine, [_], rfl, rfl⟩

/-! ## A call -/

/-- What a submission carries: the values of the call after its substitutions, under the marks of
its layers. -/
structure Carried (layers : List Layer) (args plain below : Args) : Prop where
  positional : below.positional = plain.positional
  named : ∀ name, Marker.isMarker name = false → below.named.get? name = plain.named.get? name
  markers : below.markers = args.markers.overlay (marksOf layers)
  latest : ∀ name, below.markers.get? name =
    (Dict.latest (marksOf layers) name).or (args.markers.get? name)
  apart : ∀ m ∈ marksOf layers, Marker.isMarker m.1 = true
  body : ∀ schema, Bound.of schema below = Bound.of schema plain

theorem carried_overlay {layers : List Layer} {args plain : Args}
    (h : plain.markers = args.markers) :
    Carried layers args plain (plain.overlay (marksOf layers)) := by
  have hmarks : ∀ m ∈ marksOf layers, Marker.isMarker m.1 = true := isMarker_of_mem_marksOf
  have hmarkers : (plain.overlay (marksOf layers)).markers =
      args.markers.overlay (marksOf layers) := by
    rw [Args.markers_overlay hmarks, h]
  exact {
    positional := rfl
    named := (Args.agree_overlay hmarks plain).named
    markers := hmarkers
    latest := fun name => by rw [hmarkers, Dict.get?_overlay]
    apart := hmarks
    body := Bound.of_agree (Args.agree_overlay hmarks plain) }

/-- **What the engine sees of the arguments of a call.** -/
theorem callWithin_sees (ht : s.task? id = some t) (hrole : s.context.role = .submitter)
    (hschema : t.declaration.info.schema.Unmarked)
    (hquiet : ∀ l ∈ t.declaration.layers, l.Quiet) (depth : Nat) (args : Args) :
    let after := (callWithin (depth + 1) id args s).2.fleet.history
    (∃ new, after = new ++ s.fleet.history ∧
        ∀ e ∈ new, ∀ signature, e.submitsTask signature = false) ∨
      ∃ later engine x below earlier plain, s.context.engine = some engine ∧
        after = later ++ .submit engine (.task id) x t.declaration.info.schema below ::
          (earlier ++ s.fleet.history) ∧
        (∀ e ∈ earlier, ∀ signature, e.submitsTask signature = false) ∧
        s.substituted id t args = .ok plain ∧ Carried t.declaration.layers args plain below := by
  let callTask := callNamed (callWithin depth)
  have hcall : callWithin (depth + 1) id args s =
      (s.enter id t args).1.finish callTask (s.enter id t args).2 := by
    simp only [callWithin, ht, callInScope_eq_enter, callTask]
  obtain ⟨hmoves, hcarries⟩ := s.approach_moves ht args
  obtain ⟨earlier, hearlier, hfree⟩ := approach_history ht args
  have hargs := approach_args id hrole hschema hquiet args
  rw [hcall]
  unfold enter
  generalize s.approach id t args = answer at hmoves hcarries hearlier hargs ⊢
  obtain ⟨fault | ⟨descriptor, below⟩, s'⟩ := answer
  · exact .inl ⟨earlier, hearlier, hfree⟩
  · have hsub : s'.context.role = .submitter := by rw [hmoves.extends.context, hrole]
    obtain ⟨x, rfl⟩ := Option.isSome_iff_exists.1 ((hcarries descriptor below rfl).submitter hsub)
    obtain ⟨result, hland⟩ | ⟨engine, later, he, hland⟩ :=
      land_of_submitter id t.declaration (show s.scope.role = .submitter from hrole) x below s'
    · dsimp only
      rw [hland]
      exact .inl ⟨earlier, hearlier, hfree⟩
    · refine .inr ?_
      obtain ⟨more, hmore⟩ := (finish_moves (callNamed_moves (callWithin_moves depth))
        (land id t.declaration s.scope (some x) below s').1
        (land id t.declaration s.scope (some x) below s').2).extends.history
      rw [hland, hearlier, ← List.append_assoc] at hmore
      cases hplain : s.substituted id t args with
      | error fault =>
        rw [hplain] at hargs
        cases hargs
      | ok plain =>
        rw [hplain] at hargs
        obtain rfl : below = plain.overlay (marksOf t.declaration.layers) := Except.ok.inj hargs
        exact ⟨more ++ later, engine, x, _, earlier, plain, he, hmore.symm, hfree, rfl,
          carried_overlay (markers_substituted hschema hplain)⟩

/-- Two layers write a mark of one name, and the inner one says nothing about string arguments. -/
theorem callWithin_sees_site :
    let outer : CustomLayer :=
      { name := "@outer", configure := fun _ slot => (.ok (), slot), prepend := some false
        markers := [("nodes", .string "two"), ("__site", .string "outer")] }
    let inner : CustomLayer :=
      { name := "@inner", configure := fun _ slot => (.ok (), slot)
        markers := [("site", .string "inner")] }
    let d : Declaration := ⟨⟨"demo", "echo", { params := [{ name := "x" }] }⟩,
      [.transformation [⟨"x", fun _ _ => .ok (.string "new"), ∅, true⟩], .custom outer,
        .custom inner, .task {}], fun b => .done (b.require "x")⟩
    let engine : Engine :=
      { registerScript := [.answer fun _ => .ok ()], submitScript := [.answer fun _ => .ok .null] }
    let s : Session := ⟨⟨.submitter, some 0⟩, ⟨[engine], []⟩, [.new d], ∅⟩
    let args := (Args.ofPositional [.string "old"]).setNamed "__caller" (.bool true)
    ∃ later x below earlier, (callWithin 1 0 args s).2.fleet.history =
        later ++ .submit 0 (.task 0) x d.info.schema below :: earlier ∧
      below.positional = [.string "new"] ∧
      below.markers.get? "__caller" = some (.bool true) ∧
      below.markers.get? "__prepend_strings" = some (.bool false) ∧
      below.markers.get? "__nodes" = some (.string "two") ∧
      below.markers.get? "__site" = some (.string "inner") := by
  intro outer inner d engine s args
  have ht : s.task? 0 = some (.new d) := rfl
  have hschema : d.info.schema.Unmarked := by
    simp [d, Schema.Unmarked, Marker.isMarker]
  have hquiet : ∀ l ∈ d.layers, l.Quiet := by
    simp [d, Layer.Quiet, outer, inner]
  obtain ⟨x, below, rest, hafter⟩ : ∃ x below rest, (callWithin 1 0 args s).2.fleet.history =
      .submit 0 (.task 0) x d.info.schema below :: rest := ⟨_, _, _, rfl⟩
  obtain ⟨new, hnew, hfree⟩ | ⟨later, engine, x, below, earlier, plain, he, hsplit, -, hplain, h⟩ :=
    callWithin_sees ht rfl hschema hquiet 0 args
  · have hmem : .submit 0 (.task 0) x d.info.schema below ∈ new := by
      have heq : .submit 0 (.task 0) x d.info.schema below :: rest = new ++ [] :=
        hafter.symm.trans hnew
      rw [List.append_nil] at heq
      exact heq ▸ List.mem_cons_self
    have hasked := hfree _ hmem x.canonicalSignature
    simp [Event.submitsTask] at hasked
  · cases he
    refine ⟨later, x, below, _, hsplit, ?_, ?_, ?_, ?_, ?_⟩
    · have hpositional : (s.substituted 0 (.new d) args).map (·.positional) =
          .ok [.string "new"] := rfl
      rw [hplain] at hpositional
      exact h.positional.trans (Except.ok.inj hpositional)
    · rw [h.latest]
      rfl
    · rw [h.latest]
      rfl
    · rw [h.latest]
      rfl
    · rw [h.latest]
      rfl

end Session
end TaskStack
