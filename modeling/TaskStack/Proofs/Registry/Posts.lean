import Mathlib.Data.List.Induction
import Mathlib.Logic.Equiv.Defs
import TaskStack.Proofs.Registry.Messages
import TaskStack.Proofs.Text.ByteOrder

/-!
# The first descriptor of a signature stays

Whatever descriptors are handed in to a fresh registry one after another, only one of each signature
matters: the first that keeps the contract. It gets an id and a time, and from then on it is the
element of its signature. A later one is measured against it, and changes nothing.

**State.** After any posts, the element of a signature is that of the first valid post of the
signature (`HoldsFirst`). A post keeps this true of one post more.

**Order.** Posts of different signatures do not see each other. So which posts are first does not
change when posts change places, as long as those of one signature keep theirs (`Reordering`).

**Theorem (`keepsFirst_after`).** The answers, the elements and what is told of them after any posts
are those that the first valid posts call for, in any such order of the posts.
-/

namespace TaskStack.Registry

open Http

/-! ## Posts -/

/-- A descriptor that is handed in: a request that holds it, and the stamp of its element if it is
taken. -/
structure Post where
  stamp : Stamp
  request : Request
  descriptor : TaskDescriptor
  method : request.method = "POST"
  route : route? request.target = some .elements
  contentType : request.contentType.any MediaType.isJson = true
  body : TaskDescriptor.reader.leading request.body = .ok descriptor

namespace Post

/-- The post of a descriptor as it is written. -/
def of (stamp : Stamp) (d : TaskDescriptor) : Post where
  stamp := stamp
  request := ⟨"POST", "/api/v1/core-elements", some "application/json", d.json⟩
  descriptor := d
  method := rfl
  route := show route? "/api/v1/core-elements" = some .elements by decide +kernel
  contentType := show (some "application/json").any MediaType.isJson = true by decide +kernel
  body := d.reads_write.leading

def signature (p : Post) : String := p.descriptor.canonicalSignature

/-- The descriptor keeps the contract. -/
def valid (p : Post) : Bool := p.descriptor.breach?.isNone

def element (p : Post) : RegisteredElement := ⟨p.stamp.id, p.descriptor, p.stamp.time⟩

end Post

def answer (r : Registry) (p : Post) : Response × Registry := r.handle p.stamp p.request

/-- A fresh registry after some posts. -/
def after (posts : List Post) : Registry := posts.foldl (fun r p => (r.answer p).2) {}

/-- The first valid post of a signature. -/
def first? (posts : List Post) (signature : String) : Option Post :=
  posts.find? fun p => p.valid && p.signature == signature

theorem after_append_singleton (posts : List Post) (p : Post) :
    after (posts ++ [p]) = ((after posts).answer p).2 := by
  simp [after]

theorem answer_eq (r : Registry) (p : Post) : r.answer p =
    match r.register p.stamp p.descriptor with
    | (.error e, r) => (refusal e, r)
    | (.ok (element, created), r) =>
      (⟨if created then 201 else 200, .json (RegistrationResponse.json
        ⟨element.registrationId, element.descriptor.canonicalSignature, created⟩)⟩, r) := by
  rw [answer, handle, p.route]
  cases hregister : r.register p.stamp p.descriptor with
  | mk result r' =>
    cases result <;> simp only [p.method, if_pos, accept, p.contentType, p.body, Bool.not_true,
      Bool.false_eq_true, if_false, hregister]

section

variable {posts : List Post} {p q : Post} {signature : String}

theorem valid_iff : p.valid = true ↔ p.descriptor.breach? = none := Option.isNone_iff_eq_none

theorem signature_of_first? (h : first? posts signature = some p) : p.signature = signature := by
  have := List.find?_some h
  simp only [Bool.and_eq_true, beq_iff_eq] at this
  exact this.2

theorem first?_append_singleton (posts : List Post) (p : Post) (signature : String) :
    first? (posts ++ [p]) signature = (first? posts signature).or
      (if p.valid && p.signature == signature then some p else none) := by
  rw [first?, List.find?_append, List.find?_cons, List.find?_nil]
  cases p.valid && p.signature == signature <;> rfl

end

/-! ## What is held -/

/-- The registry answers, and the element of a signature is that of its first valid post. -/
structure HoldsFirst (r : Registry) (posts : List Post) : Prop where
  usable : r.poisoned = false
  elements : ∀ signature, r.elements.get? signature = (first? posts signature).map Post.element

namespace HoldsFirst

variable {r : Registry} {posts : List Post} {p q : Post}

theorem answer_of_breach {reason : String} (hp : p.descriptor.breach? = some reason) :
    r.answer p = (⟨422, .json (refusal.error reason)⟩, r) := by
  simp only [answer_eq, register, hp, refusal]

theorem answer_of_none (h : HoldsFirst r posts) (hp : p.valid = true)
    (hfirst : first? posts p.signature = none) : r.answer p =
      (⟨201, .json (RegistrationResponse.json ⟨p.stamp.id, p.signature, true⟩)⟩,
        { r with elements := r.elements.insert p.signature p.element }) := by
  have hheld := h.elements p.signature
  rw [hfirst, Option.map_none, Post.signature] at hheld
  simp only [answer_eq, register, valid_iff.1 hp, h.usable, hheld]
  rfl

theorem answer_of_same (h : HoldsFirst r posts) (hp : p.valid = true)
    (hfirst : first? posts p.signature = some q) (hsame : q.descriptor = p.descriptor) :
    r.answer p =
      (⟨200, .json (RegistrationResponse.json ⟨q.stamp.id, p.signature, false⟩)⟩, r) := by
  have hheld := h.elements p.signature
  rw [hfirst, Option.map_some, Post.signature] at hheld
  simp only [answer_eq, register, valid_iff.1 hp, h.usable, hheld, Post.element, hsame]
  rfl

theorem answer_of_different (h : HoldsFirst r posts) (hp : p.valid = true)
    (hfirst : first? posts p.signature = some q) (hdifferent : q.descriptor ≠ p.descriptor) :
    r.answer p = (⟨409, .json (refusal.error
      (p.signature ++ " ya está registrado con otro contenido"))⟩, r) := by
  have hheld := h.elements p.signature
  rw [hfirst, Option.map_some, Post.signature] at hheld
  simp only [answer_eq, register, valid_iff.1 hp, h.usable, hheld, Post.element, hdifferent]
  rfl

/-- One post more. -/
theorem step (h : HoldsFirst r posts) (p : Post) :
    HoldsFirst (r.answer p).2 (posts ++ [p]) := by
  cases hbreach : p.descriptor.breach? with
  | some reason =>
    rw [answer_of_breach hbreach]
    refine ⟨h.usable, fun signature => ?_⟩
    rw [first?_append_singleton, Post.valid, hbreach, h.elements]
    simp
  | none =>
    have hp := valid_iff.2 hbreach
    cases hfirst : first? posts p.signature with
    | none =>
      rw [h.answer_of_none hp hfirst]
      refine ⟨h.usable, fun signature => ?_⟩
      rw [Dict.get?_insert, first?_append_singleton, hp, h.elements]
      by_cases hsignature : p.signature = signature
      · subst hsignature
        simp [hfirst]
      · simp [hsignature]
    | some q =>
      have hstays : HoldsFirst r (posts ++ [p]) := by
        refine ⟨h.usable, fun signature => ?_⟩
        rw [first?_append_singleton, h.elements]
        by_cases hsignature : p.signature = signature
        · subst hsignature
          simp [hfirst]
        · simp [hsignature]
      by_cases hsame : q.descriptor = p.descriptor
      · rwa [h.answer_of_same hp hfirst hsame]
      · rwa [h.answer_of_different hp hfirst hsame]

end HoldsFirst

theorem holdsFirst_after (posts : List Post) : HoldsFirst (after posts) posts := by
  induction posts using List.reverseRecOn with
  | nil => exact ⟨rfl, fun _ => rfl⟩
  | append_singleton posts p ih =>
    rw [after_append_singleton]
    exact ih.step p

/-! ## What is told -/

section

variable {posts : List Post} {signature : String} {e : RegisteredElement}

theorem get_after (posts : List Post) (signature : String) :
    (after posts).get signature = .ok ((first? posts signature).map Post.element) := by
  simp [get, (holdsFirst_after posts).usable, (holdsFirst_after posts).elements]

/-- An element is that of the first valid post of its signature. -/
theorem first?_of_held (h : (after posts).elements.get? signature = some e) :
    ∃ p, first? posts signature = some p ∧ p.element = e := by
  rw [(holdsFirst_after posts).elements] at h
  exact Option.map_eq_some_iff.1 h

/-- An element stands under its own signature. -/
theorem signature_of_held (h : (after posts).elements.get? signature = some e) :
    e.descriptor.canonicalSignature = signature := by
  obtain ⟨p, hp, rfl⟩ := first?_of_held h
  exact signature_of_first? hp

theorem mem_values_iff : e ∈ (after posts).elements.values ↔
    (after posts).elements.get? e.descriptor.canonicalSignature = some e := by
  constructor
  · intro h
    obtain ⟨⟨key, e⟩, hmem, rfl⟩ := List.mem_map.1 h
    have hheld := Dict.get?_eq_some_iff.2 hmem
    rwa [signature_of_held hheld]
  · intro h
    exact List.mem_map.2 ⟨_, Dict.get?_eq_some_iff.1 h, rfl⟩

theorem pairwise_values (posts : List Post) : (after posts).elements.values.Pairwise fun a b =>
    Text.bytes a.descriptor.canonicalSignature < Text.bytes b.descriptor.canonicalSignature := by
  refine List.pairwise_map.2 ((after posts).elements.sorted.imp_of_mem fun ha hb hlt => ?_)
  rw [signature_of_held (Dict.get?_eq_some_iff.2 ha),
    signature_of_held (Dict.get?_eq_some_iff.2 hb)]
  exact Text.bytes_lt_bytes hlt

/-- **The elements are sorted into the order of the map,** in whatever order they come. -/
theorem sortBySignature_eq {elements : List RegisteredElement}
    (h : elements.Perm (after posts).elements.values) :
    sortBySignature elements = (after posts).elements.values := by
  have hperm : (sortBySignature elements).Perm (after posts).elements.values :=
    (List.mergeSort_perm ..).trans h
  have hsorted : (sortBySignature elements).Pairwise fun a b =>
      a.descriptor.canonicalSignature ≤ b.descriptor.canonicalSignature := by
    refine (List.pairwise_mergeSort ?_ ?_ elements).imp of_decide_eq_true
    · intro a b c hab hbc
      exact decide_eq_true (String.le_trans (of_decide_eq_true hab) (of_decide_eq_true hbc))
    · intro a b
      simpa using String.le_total _ _
  have hvalues : (after posts).elements.values.Pairwise fun a b =>
      a.descriptor.canonicalSignature ≤ b.descriptor.canonicalSignature := by
    refine (pairwise_values posts).imp fun hlt => ?_
    exact String.not_lt.1 (String.lt_asymm (Text.lt_iff_bytes.2 hlt))
  -- elements of one signature are one element, so there is one way only to sort them
  refine hperm.eq_of_pairwise (fun a b ha hb hab hba => ?_) hsorted hvalues
  have hheld := mem_values_iff.1 (hperm.mem_iff.1 ha)
  rw [String.le_antisymm hab hba, mem_values_iff.1 hb] at hheld
  exact (Option.some.inj hheld).symm

theorem list_after (posts : List Post) :
    (after posts).list = .ok (after posts).elements.values := by
  simp [list, (holdsFirst_after posts).usable, sortBySignature_eq (.refl _)]

/-- What is held under a signature is what the list has of it. -/
theorem find?_values (posts : List Post) (signature : String) :
    (after posts).elements.values.find? (·.descriptor.canonicalSignature = signature) =
      (after posts).elements.get? signature := by
  cases hheld : (after posts).elements.get? signature with
  | none =>
    rw [List.find?_eq_none]
    intro e he hsignature
    rw [mem_values_iff, of_decide_eq_true hsignature, hheld] at he
    cases he
  | some e =>
    have hsome : ((after posts).elements.values.find?
        (·.descriptor.canonicalSignature = signature)).isSome = true := by
      have hsignature := signature_of_held hheld
      refine List.find?_isSome.2 ⟨e, mem_values_iff.2 (by rwa [hsignature]), ?_⟩
      exact decide_eq_true hsignature
    obtain ⟨e', he'⟩ := Option.isSome_iff_exists.1 hsome
    have hsignature : e'.descriptor.canonicalSignature = signature := by
      simpa using List.find?_some he'
    have hheld' := mem_values_iff.1 (List.mem_of_find?_eq_some he')
    rw [hsignature, hheld] at hheld'
    rw [he', hheld']

end

/-! ## Order -/

/-- The status of the answer to a descriptor, if the first valid one of its signature is known. -/
def verdict (d : TaskDescriptor) (first : Option TaskDescriptor) : Nat :=
  if d.breach?.isSome then 422
  else match first with
    | none => 201
    | some held => if held = d then 200 else 409

/-- The status of the answer to one of some posts. -/
def status (posts : List Post) (i : Fin posts.length) : Nat :=
  ((after (posts.take i)).answer (posts.get i)).1.status

theorem status_eq_verdict (posts : List Post) (i : Fin posts.length) :
    status posts i = verdict (posts.get i).descriptor
      ((first? (posts.take i) (posts.get i).signature).map (·.descriptor)) := by
  have h := holdsFirst_after (posts.take i)
  unfold status verdict
  generalize posts.get i = p
  cases hbreach : p.descriptor.breach? with
  | some reason => rw [HoldsFirst.answer_of_breach hbreach, Option.isSome_some, if_pos rfl]
  | none =>
    have hp := valid_iff.2 hbreach
    rw [Option.isSome_none, if_neg Bool.false_ne_true]
    cases hfirst : first? (posts.take i) p.signature with
    | none => rw [h.answer_of_none hp hfirst, Option.map_none]
    | some q =>
      by_cases hsame : q.descriptor = p.descriptor
      · simp only [h.answer_of_same hp hfirst hsame, Option.map_some, if_pos hsame]
      · simp only [h.answer_of_different hp hfirst hsame, Option.map_some, if_neg hsame]

/-- The same descriptors in an order in which those of one signature keep theirs. Stamps may be
others, since the registry gives ids and times as posts come. -/
structure Reordering (posts others : List Post) where
  place : Fin posts.length ≃ Fin others.length
  descriptor : ∀ i, (others.get (place i)).descriptor = (posts.get i).descriptor
  keeps : ∀ i j, i < j → (posts.get i).signature = (posts.get j).signature → place i < place j

/-- The post is valid, and no valid one of its signature was before it. -/
def IsFirst (posts : List Post) (k : Fin posts.length) : Prop :=
  (posts.get k).valid = true ∧
    ∀ j < k, (posts.get j).signature = (posts.get k).signature → (posts.get j).valid = false

theorem first?_take_eq_some_iff {posts : List Post} {n : Nat} {signature : String} {p : Post} :
    first? (posts.take n) signature = some p ↔ ∃ k : Fin posts.length, k.val < n ∧
      IsFirst posts k ∧ posts.get k = p ∧ p.signature = signature := by
  rw [first?, List.find?_eq_some_iff_getElem]
  simp only [List.getElem_take, Bool.and_eq_true, beq_iff_eq, List.length_take, Nat.lt_min,
    Bool.not_eq_true', Bool.and_eq_false_iff, beq_eq_false_iff_ne]
  constructor
  · rintro ⟨⟨hvalid, hsignature⟩, k, ⟨hn, hlength⟩, rfl, hbefore⟩
    refine ⟨⟨k, hlength⟩, hn, ⟨hvalid, fun j hj heq => ?_⟩, rfl, hsignature⟩
    exact (hbefore j hj).resolve_right (fun hne => hne (heq.trans hsignature))
  · rintro ⟨k, hn, ⟨hvalid, hbefore⟩, rfl, hsignature⟩
    refine ⟨⟨hvalid, hsignature⟩, k, ⟨hn, k.isLt⟩, rfl, fun j hj => ?_⟩
    by_cases heq : (posts.get ⟨j, hj.trans k.isLt⟩).signature = signature
    · exact .inl (hbefore ⟨j, hj.trans k.isLt⟩ hj (heq.trans hsignature.symm))
    · exact .inr heq

namespace Reordering

variable {posts others : List Post}

theorem signature (σ : Reordering posts others) (i : Fin posts.length) :
    (others.get (σ.place i)).signature = (posts.get i).signature :=
  congrArg TaskDescriptor.canonicalSignature (σ.descriptor i)

theorem valid (σ : Reordering posts others) (i : Fin posts.length) :
    (others.get (σ.place i)).valid = (posts.get i).valid := by
  rw [Post.valid, Post.valid, σ.descriptor]

/-- The way back. -/
def symm (σ : Reordering posts others) : Reordering others posts where
  place := σ.place.symm
  descriptor i := by rw [← σ.descriptor, Equiv.apply_symm_apply]
  keeps i j hlt heq := by
    have hsignature : (posts.get (σ.place.symm j)).signature =
        (posts.get (σ.place.symm i)).signature := by
      rw [← σ.signature, ← σ.signature, Equiv.apply_symm_apply, Equiv.apply_symm_apply, heq]
    by_contra hnot
    have hne : σ.place.symm j ≠ σ.place.symm i := fun h =>
      Fin.ne_of_lt hlt (σ.place.symm.injective h).symm
    have hlt' := Nat.lt_of_le_of_ne (Fin.not_lt.1 hnot) (Fin.val_ne_of_ne hne)
    have hbefore := σ.keeps _ _ hlt' hsignature
    rw [Equiv.apply_symm_apply, Equiv.apply_symm_apply] at hbefore
    exact Fin.lt_asymm hlt hbefore

theorem isFirst (σ : Reordering posts others) {k : Fin posts.length} (h : IsFirst posts k) :
    IsFirst others (σ.place k) := by
  refine ⟨by rw [σ.valid, h.1], fun j hj heq => ?_⟩
  have hbefore := σ.symm.keeps j (σ.place k) hj heq
  rw [symm, Equiv.symm_apply_apply] at hbefore
  rw [← Equiv.apply_symm_apply σ.place j, σ.signature, σ.signature] at heq
  rw [← Equiv.apply_symm_apply σ.place j, σ.valid]
  exact h.2 _ hbefore heq

/-- Beginnings that hold the same posts of a signature have the same first one. -/
theorem exists_first? (σ : Reordering posts others) {n m : Nat} {signature : String}
    (hnm : ∀ k : Fin posts.length, (posts.get k).signature = signature → k.val < n →
      (σ.place k).val < m) {p : Post} (h : first? (posts.take n) signature = some p) :
    ∃ q, first? (others.take m) signature = some q ∧ q.descriptor = p.descriptor := by
  obtain ⟨k, hk, hfirst, rfl, hsignature⟩ := first?_take_eq_some_iff.1 h
  refine ⟨_, first?_take_eq_some_iff.2 ⟨σ.place k, hnm k hsignature hk, σ.isFirst hfirst, rfl, ?_⟩,
    σ.descriptor k⟩
  rw [σ.signature, hsignature]

theorem first?_eq (σ : Reordering posts others) {n m : Nat} {signature : String}
    (hnm : ∀ k : Fin posts.length, (posts.get k).signature = signature →
      (k.val < n ↔ (σ.place k).val < m)) :
    (first? (others.take m) signature).map (·.descriptor) =
      (first? (posts.take n) signature).map (·.descriptor) := by
  have hback (k : Fin others.length) (hsignature : (others.get k).signature = signature)
      (hk : k.val < m) : (σ.symm.place k).val < n := by
    rw [← Equiv.apply_symm_apply σ.place k] at hsignature hk
    rw [σ.signature] at hsignature
    exact (hnm _ hsignature).2 hk
  cases hposts : first? (posts.take n) signature with
  | some p =>
    obtain ⟨q, hq, hdescriptor⟩ := σ.exists_first? (fun k hk => (hnm k hk).1) hposts
    rw [hq, Option.map_some, Option.map_some, hdescriptor]
  | none =>
    cases hothers : first? (others.take m) signature with
    | none => rfl
    | some q =>
      obtain ⟨p, hp, -⟩ := σ.symm.exists_first? hback hothers
      cases hposts.symm.trans hp

/-- Posts that change places are answered as before. -/
theorem status_eq (σ : Reordering posts others) (i : Fin posts.length) :
    status others (σ.place i) = status posts i := by
  have hfirst : (first? (others.take (σ.place i)) (posts.get i).signature).map (·.descriptor) =
      (first? (posts.take i) (posts.get i).signature).map (·.descriptor) := by
    refine σ.first?_eq fun k hk => ⟨fun h => σ.keeps k i h hk, fun h => ?_⟩
    have := σ.symm.keeps _ _ h (by rw [σ.signature, σ.signature, hk])
    rwa [symm, Equiv.symm_apply_apply, Equiv.symm_apply_apply] at this
  rw [status_eq_verdict, status_eq_verdict, σ.descriptor, σ.signature, hfirst]

/-- Posts that change places leave the same descriptors. -/
theorem descriptors_eq (σ : Reordering posts others) :
    (after others).elements.values.map (·.descriptor) =
      (after posts).elements.values.map (·.descriptor) := by
  have hsame : (after others).elements.mapValues (·.descriptor) =
      (after posts).elements.mapValues (·.descriptor) := by
    refine Dict.ext_get? fun signature => ?_
    have hfirst : (first? (others.take others.length) signature).map (·.descriptor) =
        (first? (posts.take posts.length) signature).map (·.descriptor) :=
      σ.first?_eq fun k _ => iff_of_true k.isLt (σ.place k).isLt
    rw [List.take_length, List.take_length] at hfirst
    rw [Dict.get?_mapValues, Dict.get?_mapValues, (holdsFirst_after others).elements,
      (holdsFirst_after posts).elements, Option.map_map, Option.map_map]
    exact hfirst
  rw [← Dict.values_mapValues, ← Dict.values_mapValues, hsame]

end Reordering

/-! ## The whole run -/

/-- What some posts to a fresh registry come to. -/
structure KeepsFirst (posts : List Post) : Prop where
  /-- A descriptor that breaks the contract is refused, and changes nothing. -/
  breach : ∀ (p : Post) (reason : String), p.descriptor.breach? = some reason →
    (after posts).answer p = (⟨422, .json (refusal.error reason)⟩, after posts)
  /-- The first valid one of its signature is taken. -/
  created : ∀ p : Post, p.valid = true → first? posts p.signature = none →
    ((after posts).answer p).1 =
      ⟨201, .json (RegistrationResponse.json ⟨p.stamp.id, p.signature, true⟩)⟩
  /-- A later one that equals the first gets its id, and changes nothing. -/
  unchanged : ∀ p first : Post, p.valid = true → first? posts p.signature = some first →
    first.descriptor = p.descriptor → (after posts).answer p =
      (⟨200, .json (RegistrationResponse.json ⟨first.stamp.id, p.signature, false⟩)⟩, after posts)
  /-- A later one that differs from the first is refused, and changes nothing. -/
  conflict : ∀ p first : Post, p.valid = true → first? posts p.signature = some first →
    first.descriptor ≠ p.descriptor → (after posts).answer p =
      (⟨409, .json (refusal.error
        (p.signature ++ " ya está registrado con otro contenido"))⟩, after posts)
  /-- The element of a signature is the first descriptor, with the id and the time it got. -/
  held : ∀ signature, (after posts).elements.get? signature =
    (first? posts signature).map Post.element
  named : ∀ signature e, (after posts).elements.get? signature = some e →
    e.descriptor.canonicalSignature = signature
  /-- The list has every element once, in the order of the bytes of the signatures, and an element
  that is asked for is the one of the list. -/
  listed : ∃ elements, (after posts).list = .ok elements ∧
    elements.Pairwise (fun a b => Text.bytes a.descriptor.canonicalSignature <
      Text.bytes b.descriptor.canonicalSignature) ∧ elements.Nodup ∧
    (∀ e, e ∈ elements ↔ ∃ signature, (after posts).elements.get? signature = some e) ∧
    ∀ signature, (after posts).get signature =
      .ok (elements.find? (·.descriptor.canonicalSignature = signature))
  /-- The same over the wire: all elements, and one by its signature if there is one. -/
  read : ∀ (stamp : Stamp) (request : Request), request.method = "GET" →
    (route? request.target = some .elements → ∀ elements, (after posts).list = .ok elements →
      (after posts).handle stamp request = (⟨200, .json (String.ofList
        (Json.writeArray (elements.map RegisteredElement.write)))⟩, after posts)) ∧
    ∀ segment signature, route? request.target = some (.element segment) →
      decode? segment = some signature → (after posts).handle stamp request =
        (match first? posts signature with
          | some first => ⟨200, .json first.element.json⟩
          | none => ⟨404, .none⟩, after posts)
  /-- Another order of the posts that keeps the order in every signature gives the same status for
  each of them, and leaves the same list of descriptors. -/
  reordered : ∀ (others : List Post) (σ : Reordering posts others),
    (∀ i, status others (σ.place i) = status posts i) ∧
    ∃ elements others', (after posts).list = .ok elements ∧ (after others).list = .ok others' ∧
      others'.map (·.descriptor) = elements.map (·.descriptor)

theorem read_elements {stamp : Stamp} {request : Request} {posts : List Post}
    (hmethod : request.method = "GET") (hroute : route? request.target = some .elements) :
    (after posts).handle stamp request = (⟨200, .json (String.ofList (Json.writeArray
      ((after posts).elements.values.map RegisteredElement.write)))⟩, after posts) := by
  have hpost : request.method ≠ "POST" := by rw [hmethod]; decide
  simp only [handle, hroute, if_neg hpost, handle.reading, if_pos hmethod, answerList, list_after]

theorem read_element {stamp : Stamp} {request : Request} {posts : List Post}
    {segment : List Char} {signature : String} (hmethod : request.method = "GET")
    (hroute : route? request.target = some (.element segment))
    (hsegment : decode? segment = some signature) : (after posts).handle stamp request =
      (match first? posts signature with
        | some first => ⟨200, .json first.element.json⟩
        | none => ⟨404, .none⟩, after posts) := by
  simp only [handle, hroute, handle.reading, if_pos hmethod, answerElement, hsegment, get_after]
  cases first? posts signature <;> rfl

/-- **The first valid descriptor of a signature stays, whatever else is handed in.** -/
theorem keepsFirst_after (posts : List Post) : KeepsFirst posts where
  breach _ _ hp := HoldsFirst.answer_of_breach hp
  created p hp hfirst := by rw [(holdsFirst_after posts).answer_of_none hp hfirst]
  unchanged _ _ hp hfirst hsame := (holdsFirst_after posts).answer_of_same hp hfirst hsame
  conflict _ _ hp hfirst hne := (holdsFirst_after posts).answer_of_different hp hfirst hne
  held := (holdsFirst_after posts).elements
  named _ _ := signature_of_held
  listed := by
    refine ⟨_, list_after posts, pairwise_values posts, ?_, fun e => ?_, fun signature => ?_⟩
    · refine (pairwise_values posts).imp fun hlt => ?_
      rintro rfl
      exact List.lt_irrefl _ hlt
    · rw [mem_values_iff]
      exact ⟨fun h => ⟨_, h⟩, fun ⟨_, h⟩ => by rwa [signature_of_held h]⟩
    · rw [find?_values, get_after, (holdsFirst_after posts).elements]
  read stamp request hmethod := by
    refine ⟨fun hroute elements helements => ?_, fun _ _ => read_element hmethod⟩
    rw [list_after] at helements
    cases helements
    exact read_elements hmethod hroute
  reordered _ σ :=
    ⟨σ.status_eq, _, _, list_after _, list_after _, σ.descriptors_eq⟩

/-- The descriptor of a plain function. -/
def plain (signature : String) (io : Bool) : TaskDescriptor where
  canonicalSignature := signature
  implementationSignature := some signature
  implementationType := some .plain
  io := some io
  implementationArgs := some ["demo", "f"]

/-- Handed in again, a descriptor gets the id of the first time; with other contents it is
refused. -/
theorem keepsFirst_after_again :
    let first := Post.of ⟨"id-1", ⟨0, 0⟩⟩ (plain "demo.f" false)
    let again := Post.of ⟨"id-2", ⟨1, 0⟩⟩ (plain "demo.f" false)
    let other := Post.of ⟨"id-3", ⟨2, 0⟩⟩ (plain "demo.f" true)
    (after [first]).answer again = (⟨200, .json (RegistrationResponse.json
      ⟨"id-1", "demo.f", false⟩)⟩, after [first]) ∧
    ((after [first]).answer other).1.status = 409 := by
  intro first again other
  have h := keepsFirst_after [first]
  have hfirst : first? [first] "demo.f" = some first := by
    rw [first?, List.find?_cons_of_pos]
    decide
  refine ⟨h.unchanged again first (by decide) hfirst rfl, ?_⟩
  rw [h.conflict other first (by decide) hfirst (by decide)]

end TaskStack.Registry
