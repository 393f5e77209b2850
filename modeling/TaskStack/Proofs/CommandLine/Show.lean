import TaskStack.CommandLine.Program
import TaskStack.Proofs.Registry.Routes

/-!
# Showing what is registered

The command that shows a signature puts it behind the path of all elements, as it is. The registry
takes the last segment of the path it is asked for, and decodes it. So the two agree on the
signatures that are a segment of their own and are not changed by decoding (`Addressable`): no
slash, no mark that ends a path, no blank at the end, no dot, and no triple.

**Theorem (`shows_iff_addressable`).** The registry answers the request for a signature that it
holds with the element of the signature if and only if the signature is addressable; then the
program writes that element.

* `leads_iff`: the addresses that lead to their signature. If one does, the last segment is a part
  of the signature and stands for all of it.
* `not_shows_every`: a signature with a slash is registered, and is not found.
-/

namespace TaskStack.CommandLine

open Http Registry Url

/-! ## Addresses of signatures -/

/-- A signature that stands in an address as one segment, and for which the segment stands. -/
structure Addressable (signature : String) : Prop where
  nonempty : signature ≠ ""
  /-- No blank and no control at the end. -/
  ends : ∀ h : signature.toList ≠ [], 0x20 < (signature.toList.getLast h).toNat
  marks : ∀ c ∈ signature.toList, c ∉ ['/', '\\', '#', '?', '\t', '\n', '\r']
  dots : signature ≠ "." ∧ signature ≠ ".."
  triples : ¬ Triple signature.toList

theorem segments_elementPath (signature : String) : (ofText (elementPath signature)).segments =
    walk (elementsPath.reverse) (splitSegments (pathPart signature.toList)) := by
  have htext : (elementPath signature).toList =
      "/api/v1/core-elements/".toList ++ signature.toList := by
    rw [elementPath, String.toList_append, String.toList_append]
    rfl
  have hfront : pathPart "/api/v1/core-elements/".toList = "/api/v1/core-elements/".toList := by
    decide
  rw [segments_ofText, htext, pathPart_append hfront]
  have hsplit : splitSegments (behindSlash
      ("/api/v1/core-elements/".toList ++ pathPart signature.toList)) =
        elementsPath ++ splitSegments (pathPart signature.toList) := rfl
  rw [hsplit]
  obtain ⟨s, more, hs⟩ := List.exists_cons_of_ne_nil
    (List.splitOnP_ne_nil isSlash (pathPart signature.toList))
  rw [splitSegments_eq, hs]
  rfl

theorem not_mark_iff {c : Char} :
    c ∉ ['/', '\\', '#', '?', '\t', '\n', '\r'] ↔ isSlash c = false ∧ c ∉ pathMarks := by
  simp [isSlash, pathMarks, and_assoc]

theorem pathPart_of_addressable {signature : String} (h : Addressable signature) :
    pathPart signature.toList = signature.toList :=
  pathPart_eq_self_iff.2 ⟨h.ends, fun c hc => (not_mark_iff.1 (h.marks c hc)).2⟩

/-- The address of an addressable signature ends with its segment. -/
theorem route?_of_addressable {signature : String} (h : Addressable signature) :
    route? (ofText (elementPath signature)).target =
      some (.element (percentEncode pathReserved signature.toList)) := by
  have hslash : ∀ c ∈ signature.toList, isSlash c = false :=
    fun c hc => (not_mark_iff.1 (h.marks c hc)).1
  have hstays : Stays signature.toList := by
    rw [stays_iff h.triples, ne_eq, String.toList_inj, ne_eq, String.toList_inj]
    exact h.dots
  have hsegments : (ofText (elementPath signature)).segments =
      elementsPath ++ [percentEncode pathReserved signature.toList] := by
    rw [segments_elementPath, pathPart_of_addressable h, splitSegments_eq,
      List.splitOnP_eq_singleton hslash, walk_of_stays hstays, List.reverse_reverse]
  have hne := percentEncode_ne_nil (mt String.toList_eq_nil_iff.1 h.nonempty)
  generalize percentEncode pathReserved signature.toList = segment at hsegments hne
  have hhealth : elementsPath ++ [segment] ≠ ["health".toList] := by simp [elementsPath]
  have hall : elementsPath ++ [segment] ≠ elementsPath := by simp
  simp only [route?, pathSegments_pathOf_target, hsegments, if_neg hhealth, if_neg hall,
    List.dropLast_concat, if_pos, List.getLast?_concat]
  rw [if_neg (mt List.isEmpty_iff.1 hne)]

/-- **The address of a signature leads to it if and only if the signature is addressable.** -/
theorem leads_iff {signature : String} :
    (∃ segment, route? (ofText (elementPath signature)).target = some (.element segment) ∧
      decode? segment = some signature) ↔ Addressable signature := by
  constructor
  · rintro ⟨segment, hroute, hdecode⟩
    obtain ⟨hlast, hne⟩ := getLast?_of_route? hroute
    rw [segments_elementPath, splitSegments_eq] at hlast
    obtain ⟨last, hlast', hempty | ⟨s, hs, hstays, hsegment⟩⟩ :=
      exists_getLast?_walk elementsPath.reverse
        (List.splitOnP_ne_nil isSlash (pathPart signature.toList))
    all_goals cases hlast'.symm.trans hlast
    · exact absurd hempty hne
    subst hsegment
    obtain ⟨hpart, hslash⟩ := sublist_of_mem ((splitSegments_eq _).symm ▸ hs)
    have hsub := hpart.trans (pathPart_sublist _)
    obtain ⟨rfl, htriples⟩ := eq_of_decode? hsub hdecode
    obtain ⟨hends, hmarks⟩ :=
      pathPart_eq_self_iff.1 ((pathPart_sublist signature.toList).antisymm hpart)
    rw [stays_iff htriples, ne_eq, String.toList_inj, ne_eq, String.toList_inj] at hstays
    refine ⟨?_, hends, fun c hc => not_mark_iff.2 ⟨hslash c hc, hmarks c hc⟩, hstays, htriples⟩
    rintro rfl
    exact hne rfl
  · intro h
    exact ⟨_, route?_of_addressable h, decode?_percentEncode h.triples⟩

/-! ## What is shown -/

/-- The request that reads what is at a path. -/
def reading (path : String) : Http.Request where
  method := "GET"
  target := (ofText path).target

theorem reading_method (path : String) : (reading path).method = "GET" := rfl

theorem fetch_registry (address : String) (r : Registry) (path : String) :
    fetch ⟨address, .registry r⟩ path = (.ok (r.handle r.nextStamp (reading path)).1,
      ⟨address, .registry (r.handle r.nextStamp (reading path)).2⟩) := by
  unfold fetch Connection.send Link.send reading
  dsimp only [Connection.stamp]

/-- An answer with an element is written. -/
theorem element_of_fetch {c : Connection} {signature : String} {e : RegisteredElement}
    (h : fetch c (elementPath signature) = (.ok ⟨200, .json e.json⟩, c))
    (htime : e.registeredAt.Valid) : element c signature = ({ output := shown e }, c) := by
  rw [element, h]
  simp only [Body.content, RegisteredElement.ofJson_json htime]
  rfl

theorem program_of_show {env : Environment} {arguments : List String} {signature : String}
    (h : Request.ofArguments arguments = .invocation (.element signature)) :
    program env arguments = element env.connection signature := by
  rw [program, h]
  rfl

section

variable {posts : List Post} {signature : String} {e : RegisteredElement}

/-- The request for a held signature is answered with its element if and only if the address leads
to it. -/
theorem fetch_eq_iff (htimes : ∀ p ∈ posts, p.stamp.time.Valid)
    (held : (after posts).elements.get? signature = some e) (address : String) :
    (fetch ⟨address, .registry (after posts)⟩ (elementPath signature)).1 =
      .ok ⟨200, .json e.json⟩ ↔ Addressable signature := by
  rw [fetch_registry, Except.ok.injEq, answers_iff htimes held (reading_method _)]
  exact leads_iff

/-- A connection stays as it is when something is read. -/
theorem fetch_snd (address : String) (r : Registry) (path : String) :
    (fetch ⟨address, .registry r⟩ path).2 = ⟨address, .registry r⟩ := by
  rw [fetch_registry, handle_get r _ (reading_method _)]

end

/-- **A registered signature is shown if and only if it is addressable.** -/
theorem shows_iff_addressable {r : Registry} (hr : Reached r) {signature : String}
    {e : RegisteredElement} (held : r.elements.get? signature = some e) (address : String) :
    let c : Connection := ⟨address, .registry r⟩
    ((fetch c (elementPath signature)).1 = .ok ⟨200, .json e.json⟩ ↔ Addressable signature) ∧
    (Addressable signature → ∀ (role : Option String) (arguments : List String),
      Request.ofArguments arguments = .invocation (.element signature) →
      program ⟨role, c⟩ arguments = ({ output := shown e }, c)) := by
  intro c
  obtain ⟨posts, rfl, htimes⟩ := hr.exists_posts
  refine ⟨fetch_eq_iff htimes held address, fun h role arguments harguments => ?_⟩
  have hanswer := (fetch_eq_iff htimes held address).2 h
  have hsame := fetch_snd address (after posts) (elementPath signature)
  rw [program_of_show harguments]
  exact element_of_fetch (Prod.ext hanswer hsame) (valid_of_held htimes held)

/-- A plain function is found under its name, and written. -/
theorem shows_iff_addressable_plain :
    let post := Post.of ⟨"id-1", ⟨0, 0⟩⟩ (plain "demo.f" false)
    let c : Connection := ⟨"", .registry (after [post])⟩
    Reached (after [post]) ∧ (after [post]).elements.get? "demo.f" = some post.element ∧
      Addressable "demo.f" ∧
      Request.ofArguments ["show", "demo.f"] = .invocation (.element "demo.f") ∧
      program ⟨none, c⟩ ["show", "demo.f"] = ({ output := shown post.element }, c) := by
  intro post c
  have hreached : Reached (after [post]) :=
    reached_after (List.forall_mem_singleton.2 ⟨by decide, by decide⟩)
  have held : (after [post]).elements.get? "demo.f" = some post.element :=
    held_after_singleton (p := post) (by decide)
  have haddressable : Addressable "demo.f" := by
    refine ⟨by decide, by decide, by simp, by decide, ?_⟩
    rintro ⟨a, b, hstands, -⟩
    exact absurd (hstands.subset List.mem_cons_self) (by decide)
  have harguments : Request.ofArguments ["show", "demo.f"] = .invocation (.element "demo.f") := by
    decide +kernel
  exact ⟨hreached, held, haddressable, harguments,
    (shows_iff_addressable hreached held "").2 haddressable none _ harguments⟩

/-- **A signature with a slash is registered, and is not found.** -/
theorem not_shows_every :
    ¬ ∀ (r : Registry) (signature : String) (e : RegisteredElement) (address : String),
      Reached r → r.elements.get? signature = some e →
      (fetch ⟨address, .registry r⟩ (elementPath signature)).1 = .ok ⟨200, .json e.json⟩ ∧
      (program ⟨none, ⟨address, .registry r⟩⟩ ["show", signature]).1 = { output := shown e } := by
  intro h
  let post := Post.of ⟨"id-1", ⟨0, 0⟩⟩ (plain "a/b" false)
  have htimes : ∀ p ∈ [post], p.stamp.time.Valid :=
    List.forall_mem_singleton.2 ⟨by decide, by decide⟩
  have held : (after [post]).elements.get? "a/b" = some post.element :=
    held_after_singleton (p := post) (by decide)
  have hanswer := (h _ "a/b" _ "" (reached_after htimes) held).1
  exact ((fetch_eq_iff htimes held "").1 hanswer).marks '/' (by decide) (by decide)

end TaskStack.CommandLine
