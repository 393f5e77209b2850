import TaskStack.Proofs.Call.Agree
import TaskStack.Session.Command

/-!
# A body is blind to marks, and to nothing else

Marks are hidden from a body twice: they are taken off the arguments before it runs, and its view
does not look up a reserved name among the arguments passed by name. Both hide the same names. A
schema may declare a reserved name all the same; then its value comes from a position or from its
default, and there the marks have no say.

**Theorem (`agree_iff_indistinct`).** Arguments agree but for their marks exactly when no body can
tell them apart, whatever its schema, with the marks on or off, and whoever runs it.

* `Args.withoutMarkers_eq_iff`: what is left of arguments without their marks.
* `Bound.views`: what can be shown of arguments to a body.
-/

namespace TaskStack

/-- Arguments agree exactly when the same is left of them without their marks. -/
theorem Args.withoutMarkers_eq_iff {a b : Args} :
    a.withoutMarkers = b.withoutMarkers ↔ a.Agree b := by
  constructor
  · intro h
    have hpositional : a.withoutMarkers.positional = b.withoutMarkers.positional := by rw [h]
    refine ⟨hpositional, ?_⟩
    intro name hname
    have hget := congrArg (fun c => c.named.get? name) h
    simpa only [withoutMarkers, Dict.get?_filterKeys, hname, Bool.not_false, if_true] using hget
  · intro h
    have hnamed : a.withoutMarkers.named = b.withoutMarkers.named := by
      apply Dict.ext_get?
      intro name
      simp only [withoutMarkers, Dict.get?_filterKeys]
      cases hname : Marker.isMarker name with
      | true => rfl
      | false => rw [h.named name hname]
    simp only [withoutMarkers] at hnamed ⊢
    rw [h.positional, hnamed]

namespace Bound

variable {s : Schema} {a b : Args} {v w : Bound}

/-- What can be shown of arguments to a body: all of them, or what is left without the marks. -/
def views (s : Schema) (a : Args) : List Bound := [of s a, of s a.withoutMarkers]

theorem eq_of_mem_views (h : v ∈ views s a) : v = of s a := by
  obtain rfl | h := List.mem_cons.1 h
  · rfl
  · rw [List.mem_singleton.1 h, of_agree a.agree_withoutMarkers]

/-- Two views answer every question alike, also one for a reserved name. -/
structure Alike (v w : Bound) : Prop where
  get : ∀ name, v.get? name = w.get? name
  require : ∀ name, v.require name = w.require name
  int64 : ∀ name, v.int64 name = w.int64 name

theorem alike_of_agree (h : a.Agree b) (hv : v ∈ views s a) (hw : w ∈ views s b) : v.Alike w := by
  have heq : v = w := by
    rw [eq_of_mem_views hv, eq_of_mem_views hw, of_agree h]
  subst heq
  exact ⟨fun _ => rfl, fun _ => rfl, fun _ => rfl⟩

/-! ## What a view shows -/

theorem get?_of_no_params (a : Args) {name : String} (h : Marker.isMarker name = false) :
    (of {} a).get? name = a.named.get? name := by
  unfold of
  cases hname : a.named.get? name with
  | none => simp [h, hname, Schema.position?]
  | some v => simp [h, hname]

/-- A schema whose parameter at a place has a reserved name, and no other parameter has one. -/
def reservedAt (index : Nat) : Schema where
  params := List.replicate index { name := "" } ++ [{ name := "__" }]

/-- A declared reserved name shows the argument at its place, and no mark of that name. -/
theorem get?_of_reservedAt (index : Nat) (a : Args) :
    (of (reservedAt index) a).get? "__" = a.positional[index]? := by
  have hposition : (reservedAt index).position? "__" = some index := by
    simp [Schema.position?, reservedAt, List.findIdx?_append]
  have hdefault : ((reservedAt index).get? "__").bind (·.default) = none := by
    simp [Schema.get?, reservedAt, List.find?_append]
  have hmarker : Marker.isMarker "__" = true := by decide
  unfold of
  simp only [hmarker, hposition, hdefault, if_true]
  cases a.positional[index]? <;> rfl

end Bound

namespace Session

/-- Runs the body of a submission in this process, on what is left of its arguments without their
marks. -/
def runLocally (callTask : String → Args → Session → Except Fault Value × Session) (schema : Schema)
    (body : Body) (args : Args) (s : Session) : Except Fault Value × Session :=
  (body (Bound.of schema args.withoutMarkers)).run callTask s

variable {callTask : String → Args → Session → Except Fault Value × Session} {schema : Schema}
  {body : Body} {a b : Args}

theorem runBody_eq_runLocally (id : TaskId) (d : Declaration) (role : Role) (args : Args)
    (s : Session) : runBody callTask id d role args s =
      runLocally callTask d.info.schema d.body args
        { s with fleet := s.fleet.log (.body id role) } := rfl

/-- A submission that its engine does not settle is run in this process. -/
theorem submit_of_run {s : Session} {engine : EngineId} {d : TaskDescriptor} {args : Args}
    (h : (s.fleet.submit engine .other d schema args).1 = .run) (body : Body) :
    s.submit engine d schema args body =
      runLocally (fun name args s => s.callByName name args) schema body args
        { s with fleet := (s.fleet.submit engine .other d schema args).2 } := by
  simp only [submit, h]
  rfl

theorem runLocally_of_agree (h : a.Agree b) (s : Session) :
    runLocally callTask schema body a s = runLocally callTask schema body b s := by
  rw [runLocally, runLocally, Args.withoutMarkers_eq_iff.2 h]

end Session

/-- No body with the parameters of the schema can tell the arguments apart: it is given the same,
its views answer alike, and it does the same, as the body of a call and as that of a submission. -/
structure Args.Indistinct (schema : Schema) (a b : Args) : Prop where
  given : a.withoutMarkers = b.withoutMarkers
  alike : ∀ v ∈ Bound.views schema a, ∀ w ∈ Bound.views schema b, v.Alike w
  runBody : ∀ (d : Declaration), d.info.schema = schema → ∀ callTask id role s,
    Session.runBody callTask id d role a s = Session.runBody callTask id d role b s
  runLocally : ∀ callTask body s,
    Session.runLocally callTask schema body a s = Session.runLocally callTask schema body b s
  submit : ∀ (s : Session) engine d body, (s.fleet.submit engine .other d schema a).1 = .run →
    s.submit engine d schema a body =
      Session.runLocally (fun name args s => s.callByName name args) schema body b
        { s with fleet := (s.fleet.submit engine .other d schema a).2 }

/-- **A body is blind to marks, and to nothing else.** -/
theorem Args.agree_iff_indistinct {a b : Args} :
    a.Agree b ↔ ∀ schema, Args.Indistinct schema a b := by
  constructor
  · intro h schema
    exact {
      given := withoutMarkers_eq_iff.2 h
      alike := fun v hv w hw => Bound.alike_of_agree h hv hw
      runBody := by
        intro d _ callTask id role s
        rw [Session.runBody_eq_runLocally, Session.runLocally_of_agree h,
          Session.runBody_eq_runLocally]
      runLocally := fun callTask body s => Session.runLocally_of_agree h s
      submit := by
        intro s engine d body hrun
        rw [Session.submit_of_run hrun, Session.runLocally_of_agree h] }
  · -- each name and each place is shown by some schema
    intro h
    have hshown : ∀ schema name, (Bound.of schema a).get? name = (Bound.of schema b).get? name :=
      fun schema => ((h schema).alike _ List.mem_cons_self _ List.mem_cons_self).get
    constructor
    · apply List.ext_getElem?
      intro index
      rw [← Bound.get?_of_reservedAt, ← Bound.get?_of_reservedAt, hshown]
    · intro name hname
      rw [← Bound.get?_of_no_params a hname, ← Bound.get?_of_no_params b hname, hshown]

/-- A reserved name that is declared has the value of its position, whatever is passed by that
name. -/
example :
    let a : Args := (Args.ofPositional [.int 1]).setNamed "__nodes" (.int 5)
    (Bound.of { params := [{ name := "__nodes" }] } a).get? "__nodes" = some (.int 1) ∧
      a.withoutMarkers.named.entries = [] := by
  exact ⟨rfl, rfl⟩

end TaskStack
