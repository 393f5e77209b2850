import TaskStack.Proofs.Http.Paths
import TaskStack.Proofs.Registry.Posts

/-!
# Requests and what they reach

A request for an address is routed by the segments of the address. Whatever is asked, a registry
changes by nothing but posts, so every registry that some requests lead to is the one after some
posts. Of two elements in it neither has the text of the other, so an answer tells which one was
asked for.

* `pathSegments_pathOf_target`: the segments that a route looks at are those of the address.
* `handle_cases`: a request is a post, or it changes nothing.
* `Reached.exists_posts`: the registries that requests lead to.
* `answers_iff`: the requests that are answered with the element of a signature.
-/

namespace TaskStack.Registry

open Http

/-! ## Addresses -/

theorem pathSegments_eq (cs : List Char) : pathSegments cs = cs.splitOn '/' := by
  induction cs with
  | nil => rfl
  | cons c cs ih =>
    obtain ⟨s, more, hcs⟩ := List.exists_cons_of_ne_nil (List.splitOn_ne_nil '/' cs)
    rw [pathSegments, List.splitOn_cons_eq_if_modifyHead, ih, hcs]
    simp only [beq_iff_eq]
    rfl

theorem intercalate_cons (s : List Char) (ss : List (List Char)) :
    ['/'].intercalate (s :: ss) = s ++ ss.flatMap fun s => '/' :: s := by
  induction ss generalizing s with
  | nil => rw [List.intercalate_singleton, List.flatMap_nil, List.append_nil]
  | cons s' ss ih =>
    rw [List.intercalate_cons_cons, ih, List.flatMap_cons]
    simp

/-- A path is parted into the segments that it was made of. -/
theorem pathSegments_path {u : Url} (h : ∀ s ∈ u.segments, '/' ∉ s) :
    pathSegments u.path = [] :: u.segments := by
  have hpath : u.path = ['/'].intercalate ([] :: u.segments) := (intercalate_cons [] _).symm
  rw [pathSegments_eq, hpath, List.splitOn_intercalate]
  · exact List.forall_mem_cons.2 ⟨List.not_mem_nil, h⟩
  · exact List.cons_ne_nil _ _

theorem afterHost?_slash (cs : List Char) : afterHost? ('/' :: cs) = none := by
  rw [afterHost?, List.dropWhile_cons_of_neg (by decide)]
  rfl

theorem pathOf_target (text : String) :
    pathOf (Url.ofText text).target = (Url.ofText text).path := by
  have hmem : ∀ c ∈ (Url.ofText text).path, (c != '?' && c != '#') = true := by
    intro c hc
    obtain ⟨s, hs, hcs⟩ := List.mem_flatMap.1 hc
    obtain rfl | hcs := List.mem_cons.1 hcs
    · decide
    · have := Url.not_delimiter_of_mem_segments hs c hcs
      simp only [List.mem_cons, List.not_mem_nil, or_false, not_or] at this
      simp [this]
  obtain ⟨s, ss, hsegments⟩ := List.exists_cons_of_ne_nil (Url.segments_ofText_ne_nil text)
  have hfront : (Url.ofText text).path = '/' :: (s ++ ss.flatMap fun s => '/' :: s) := by
    rw [Url.path, hsegments, List.flatMap_cons, List.cons_append]
  have hhost : afterHost? (Url.ofText text).target.toList = none := by
    rw [Url.target, String.toList_ofList, hfront]
    exact afterHost?_slash _
  rw [pathOf, hhost, Option.getD_none, Url.target, String.toList_ofList,
    List.takeWhile_append_of_pos hmem]
  cases (Url.ofText text).query with
  | none => simp
  | some query =>
    rw [Option.map_some, Option.getD_some, List.takeWhile_cons_of_neg (by decide), List.append_nil]

/-- **A request is routed by the segments of its address.** -/
theorem pathSegments_pathOf_target (text : String) :
    pathSegments (pathOf (Url.ofText text).target) = [] :: (Url.ofText text).segments := by
  rw [pathOf_target, pathSegments_path]
  exact fun s hs hslash => Url.not_delimiter_of_mem_segments hs '/' hslash (by decide)

/-- The segment of an element is the last one of the address. -/
theorem getLast?_of_route? {text : String} {segment : List Char}
    (h : route? (Url.ofText text).target = some (.element segment)) :
    (Url.ofText text).segments.getLast? = some segment ∧ segment ≠ [] := by
  simp only [route?, pathSegments_pathOf_target] at h
  split at h
  · cases h
  split at h
  · cases h
  split at h
  · split at h
    · next s hs =>
      split at h
      · cases h
      · next hempty =>
        cases h
        exact ⟨hs, fun hnil => hempty (List.isEmpty_iff.2 hnil)⟩
    · cases h
  · cases h

/-! ## Requests -/

/-- **A request is a post, or it changes nothing.** -/
theorem handle_cases (r : Registry) (stamp : Stamp) (request : Request) :
    (r.handle stamp request).2 = r ∨ ∃ p : Post, p.stamp = stamp ∧ p.request = request := by
  have hreading (response : Response) : (handle.reading r request response).2 = r := by
    unfold handle.reading
    split
    · rfl
    · split <;> rfl
  unfold handle
  split
  · exact .inl rfl
  · next hroute =>
    split
    · next hmethod =>
      by_cases htype : request.contentType.any MediaType.isJson = true
      · unfold accept
        rw [htype]
        dsimp only [Bool.not_true]
        cases hbody : TaskDescriptor.reader.leading request.body with
        | error e => cases e <;> exact .inl rfl
        | ok d => exact .inr ⟨⟨stamp, request, d, hmethod, hroute, htype, hbody⟩, rfl, rfl⟩
      · rw [Bool.not_eq_true] at htype
        left
        rw [accept, htype]
        rfl
    · exact .inl (hreading _)
  · exact .inl (hreading _)
  · exact .inl (hreading _)

/-- Reading changes nothing. -/
theorem handle_get (r : Registry) (stamp : Stamp) {request : Request}
    (h : request.method = "GET") : (r.handle stamp request).2 = r := by
  obtain hsame | ⟨p, -, rfl⟩ := r.handle_cases stamp request
  · exact hsame
  · exact absurd (p.method.symm.trans h) (by decide)

/-- A registry that some requests lead to from a fresh one. New elements get their times from a
clock. -/
inductive Reached : Registry → Prop
  | fresh : Reached {}
  | handle {r : Registry} (h : Reached r) {stamp : Stamp} (clock : stamp.time.Valid)
      (request : Request) : Reached (r.handle stamp request).2

/-- **Requests lead to what posts lead to.** -/
theorem Reached.exists_posts {r : Registry} (h : Reached r) :
    ∃ posts, r = after posts ∧ ∀ p ∈ posts, p.stamp.time.Valid := by
  induction h with
  | fresh => exact ⟨[], rfl, fun _ hp => absurd hp List.not_mem_nil⟩
  | @handle r _ stamp clock request ih =>
    obtain ⟨posts, rfl, hposts⟩ := ih
    obtain hsame | ⟨p, rfl, rfl⟩ := (after posts).handle_cases stamp request
    · exact ⟨posts, hsame, hposts⟩
    · refine ⟨posts ++ [p], (after_append_singleton posts p).symm, ?_⟩
      intro q hq
      obtain hq | hq := List.mem_append.1 hq
      · exact hposts q hq
      · rw [List.mem_singleton.1 hq]
        exact clock

theorem reached_after {posts : List Post} (h : ∀ p ∈ posts, p.stamp.time.Valid) :
    Reached (after posts) := by
  induction posts using List.reverseRecOn with
  | nil => exact .fresh
  | append_singleton posts p ih =>
    rw [after_append_singleton]
    exact (ih fun q hq => h q (List.mem_append_left _ hq)).handle
      (h p (List.mem_append_right _ List.mem_cons_self)) p.request

theorem held_after_singleton {p : Post} (hp : p.valid = true) :
    (after [p]).elements.get? p.signature = some p.element := by
  rw [(holdsFirst_after [p]).elements, first?, List.find?_cons_of_pos (by simp [hp]),
    Option.map_some]

/-! ## Answers -/

theorem json_ne_list (e : RegisteredElement) (items : List (List Char)) :
    e.json ≠ String.ofList (Json.writeArray items) := by
  intro h
  have := String.ofList_injective h
  cases this

variable {posts : List Post} {signature : String} {e : RegisteredElement}

theorem valid_of_held (htimes : ∀ p ∈ posts, p.stamp.time.Valid)
    (held : (after posts).elements.get? signature = some e) : e.registeredAt.Valid := by
  obtain ⟨p, hp, rfl⟩ := first?_of_held held
  exact htimes p (List.mem_of_find?_eq_some hp)

/-- **Only a segment that stands for a signature is answered with the element of it.** -/
theorem answers_iff (htimes : ∀ p ∈ posts, p.stamp.time.Valid)
    (held : (after posts).elements.get? signature = some e) {stamp : Stamp} {request : Request}
    (hmethod : request.method = "GET") :
    ((after posts).handle stamp request).1 = ⟨200, .json e.json⟩ ↔
      ∃ segment, route? request.target = some (.element segment) ∧
        decode? segment = some signature := by
  constructor
  · intro hanswer
    cases hroute : route? request.target with
    | none => simp [handle, hroute] at hanswer
    | some route =>
      cases route with
      | health => simp [handle, hroute, handle.reading, hmethod] at hanswer
      | elements =>
        rw [read_elements hmethod hroute] at hanswer
        simp only [Response.mk.injEq, Body.json.injEq, true_and] at hanswer
        exact absurd hanswer.symm (json_ne_list e _)
      | element segment =>
        cases hsegment : decode? segment with
        | none => simp [handle, hroute, handle.reading, hmethod, answerElement, hsegment] at hanswer
        | some other =>
          rw [read_element hmethod hroute hsegment] at hanswer
          cases hfirst : first? posts other with
          | none => simp [hfirst] at hanswer
          | some p =>
            have hother : (after posts).elements.get? other = some p.element := by
              rw [(holdsFirst_after posts).elements, hfirst, Option.map_some]
            simp only [hfirst, Response.mk.injEq, Body.json.injEq, true_and] at hanswer
            have hsame := RegisteredElement.json_inj (valid_of_held htimes hother)
              (valid_of_held htimes held) hanswer
            refine ⟨segment, rfl, ?_⟩
            rw [hsegment, ← signature_of_held held, ← hsame, signature_of_held hother]
  · rintro ⟨segment, hroute, hsegment⟩
    obtain ⟨p, hp, rfl⟩ := first?_of_held held
    rw [read_element hmethod hroute hsegment, hp]

end TaskStack.Registry
