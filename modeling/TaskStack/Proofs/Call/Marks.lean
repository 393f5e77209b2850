import TaskStack.Layer.Basic
import TaskStack.Proofs.Call.Agree

/-!
# The marks that layers put on

A layer overlays the arguments of a call with its marks: what it says about string arguments, if it
says anything, and then its markers in their order. One overlay after another is an overlay with
both, so below any number of layers the arguments carry the marks of all of them, from the outermost
layer inwards. Of several marks with one name the last one counts, and a name without a mark keeps
what the caller gave it.

* `Layer.mark_eq_overlay`: the marks of a layer are an overlay.
* `Dict.get?_overlay`: the last writer of a name.
* `Args.agree_overlay`, `Args.markers_overlay`: what marks leave alone, and what they write.
* `Args.replace_overlay`: a value can as well be written before the marks are put on.
-/

namespace TaskStack

namespace Dict

variable {α : Type} {d : Dict α} {es : List (String × α)} {k : String}

/-- Entries written over a dictionary, one after another. -/
def overlay (d : Dict α) (es : List (String × α)) : Dict α :=
  es.foldl (fun d e => d.insert e.1 e.2) d

/-- The value of the last entry of a name. -/
def latest (es : List (String × α)) (k : String) : Option α :=
  (es.reverse.find? (·.1 = k)).map (·.2)

theorem overlay_append (d : Dict α) (es es' : List (String × α)) :
    d.overlay (es ++ es') = (d.overlay es).overlay es' :=
  List.foldl_append

theorem latest_cons (e : String × α) (es : List (String × α)) (k : String) :
    latest (e :: es) k = (latest es k).or (if e.1 = k then some e.2 else none) := by
  rw [latest, latest, List.reverse_cons, List.find?_append]
  cases es.reverse.find? (·.1 = k) with
  | some _ => rfl
  | none =>
    by_cases he : e.1 = k
    · simp [he]
    · simp [he]

/-- The last writer of a name counts. -/
theorem get?_overlay (d : Dict α) (es : List (String × α)) (k : String) :
    (d.overlay es).get? k = (latest es k).or (d.get? k) := by
  induction es generalizing d with
  | nil => rfl
  | cons e rest ih =>
    have hrest : d.overlay (e :: rest) = (d.insert e.1 e.2).overlay rest := rfl
    rw [hrest, ih, latest_cons, get?_insert, Option.or_assoc]
    split <;> rfl

theorem latest_eq_none (h : ∀ e ∈ es, e.1 ≠ k) : latest es k = none := by
  rw [latest, Option.map_eq_none_iff, List.find?_eq_none]
  intro e he heq
  exact h e (List.mem_reverse.1 he) (of_decide_eq_true heq)

theorem get?_overlay_of_ne (h : ∀ e ∈ es, e.1 ≠ k) : (d.overlay es).get? k = d.get? k := by
  rw [get?_overlay, latest_eq_none h, Option.none_or]

theorem overlay_insert (h : ∀ e ∈ es, e.1 ≠ k) (v : α) :
    (d.overlay es).insert k v = (d.insert k v).overlay es := by
  apply ext_get?
  intro k'
  by_cases hk : k = k'
  · subst hk
    rw [get?_insert_self, get?_overlay_of_ne h, get?_insert_self]
  · rw [get?_insert_of_ne _ _ hk, get?_overlay, get?_overlay, get?_insert_of_ne _ _ hk]

theorem filterKeys_overlay {p : String → Bool} (h : ∀ e ∈ es, p e.1 = true) :
    (d.overlay es).filterKeys p = (d.filterKeys p).overlay es := by
  apply ext_get?
  intro k
  rw [get?_overlay, get?_filterKeys, get?_filterKeys, get?_overlay]
  by_cases hk : p k = true
  · rw [if_pos hk, if_pos hk]
  · have hne : ∀ e ∈ es, e.1 ≠ k := by
      rintro e he rfl
      exact hk (h e he)
    rw [if_neg hk, if_neg hk, latest_eq_none hne]
    rfl

end Dict

/-! ## Marks -/

/-- What a layer writes over the arguments. -/
def Layer.marks (l : Layer) : List (String × Value) :=
  (l.prepend.map fun b => (Marker.prependStrings, .bool b)).toList ++
    l.markers.map fun m => (Marker.named m.1, m.2)

theorem Layer.isMarker_of_mem_marks {l : Layer} {m : String × Value} (h : m ∈ l.marks) :
    Marker.isMarker m.1 = true := by
  obtain h | h := List.mem_append.1 h
  · obtain ⟨b, -, rfl⟩ := Option.map_eq_some_iff.1 (Option.mem_toList.1 h)
    show Marker.isMarker Marker.prependStrings = true
    decide
  · obtain ⟨_, -, rfl⟩ := List.mem_map.1 h
    exact Marker.isMarker_named _

/-- The marks of layers, from the outermost one inwards. -/
def marksOf (layers : List Layer) : List (String × Value) := layers.flatMap Layer.marks

theorem isMarker_of_mem_marksOf {layers : List Layer} :
    ∀ m ∈ marksOf layers, Marker.isMarker m.1 = true := by
  intro m hm
  obtain ⟨_, -, hm⟩ := List.mem_flatMap.1 hm
  exact Layer.isMarker_of_mem_marks hm

namespace Args

variable {a : Args} {ms : List (String × Value)}

/-- Arguments with marks put on, one after another. -/
def overlay (a : Args) (ms : List (String × Value)) : Args :=
  { a with named := a.named.overlay ms }

theorem overlay_append (a : Args) (ms ms' : List (String × Value)) :
    a.overlay (ms ++ ms') = (a.overlay ms).overlay ms' := by
  simp only [overlay, Dict.overlay_append]

theorem foldl_mark (markers : List (String × Value)) (a : Args) :
    markers.foldl (fun a m => a.mark m.1 m.2) a =
      a.overlay (markers.map fun m => (Marker.named m.1, m.2)) := by
  induction markers generalizing a with
  | nil => rfl
  | cons m rest ih => exact ih (a.mark m.1 m.2)

variable (hms : ∀ m ∈ ms, Marker.isMarker m.1 = true)
include hms

theorem ne_of_marks {name : String} (hname : Marker.isMarker name = false) :
    ∀ m ∈ ms, m.1 ≠ name := by
  rintro m hm rfl
  rw [hms m hm] at hname
  cases hname

/-- Marks leave the positions and the parameters alone. -/
theorem agree_overlay (a : Args) : (a.overlay ms).Agree a :=
  ⟨rfl, fun _ hname => Dict.get?_overlay_of_ne (ne_of_marks hms hname)⟩

theorem markers_overlay (a : Args) : (a.overlay ms).markers = a.markers.overlay ms :=
  Dict.filterKeys_overlay hms

/-- A value that is written below marks can as well be written before they are put on. -/
theorem replace_overlay (a : Args) (site : Site) {name : String}
    (hname : Marker.isMarker name = false) (w : Value) :
    (a.overlay ms).replace site name w = (a.replace site name w).overlay ms := by
  have hset : (a.overlay ms).setNamed name w = (a.setNamed name w).overlay ms := by
    simp only [setNamed, overlay, Dict.overlay_insert (ne_of_marks hms hname)]
  cases site with
  | keyword => exact hset
  | default => exact hset
  | positional index =>
    have hlength : (a.overlay ms).positional = a.positional := rfl
    simp only [replace, hlength]
    split
    · rfl
    · exact hset

end Args

/-- The marks of a layer are an overlay. -/
theorem Layer.mark_eq_overlay (l : Layer) (a : Args) : l.mark a = a.overlay l.marks := by
  rw [mark, Args.marked, Args.foldl_mark, marks, Args.overlay_append]
  cases l.prepend <;> rfl

end TaskStack
