import Mathlib.Data.List.Nodup
import TaskStack.Proofs.Registry.Agreement

/-!
# A registry that is told the same things again

A client that goes through a fixed list of descriptors may stop anywhere and begin anew. The
registry then gets beginnings of the list, one after another. If the descriptors keep the contract
and no two share a signature, it takes each of them once, in the order of the list, and finds it
unchanged whenever it comes again.

**State.** The registry holds exactly a beginning of the list (`Stocks`). A beginning that is told
to it makes it hold the longer one of the two.

**Theorem (`Stocks.serves_flatten`).** After any beginnings the registry holds a beginning of the
list. It has answered 200 or 201 to everything, and 201 to what it holds, in the order of the list.

* `serve`: the exchanges over descriptors that are sent one after another.
* `held_serve`: what a registry holds stays as it is.
-/

namespace TaskStack.Registry

open Http

/-! ## Exchanges -/

/-- A descriptor that was sent, and the answer to it. -/
structure Exchange where
  descriptor : TaskDescriptor
  response : Response

/-- The request that a client makes of a descriptor. -/
def asking (d : TaskDescriptor) : Request :=
  ⟨"POST", (Url.ofText Connection.elementsPath).target, some "application/json", d.json⟩

/-- The exchanges over descriptors that are sent one after another, and the registry afterwards. -/
def serve (r : Registry) : List TaskDescriptor → List Exchange × Registry
  | [] => ([], r)
  | d :: rest =>
    let (response, r) := r.handle r.nextStamp (asking d)
    let (exchanges, r) := r.serve rest
    (⟨d, response⟩ :: exchanges, r)

/-- The signatures that were new to the registry, in their order. -/
def created (exchanges : List Exchange) : List String :=
  (exchanges.filter (·.response.status = 201)).map (·.descriptor.canonicalSignature)

variable {r : Registry} {d : TaskDescriptor} {ds : List TaskDescriptor} {n k : Nat}

theorem created_append (xs ys : List Exchange) : created (xs ++ ys) = created xs ++ created ys := by
  simp [created]

theorem serve_append (r : Registry) (ds ds' : List TaskDescriptor) :
    r.serve (ds ++ ds') =
      ((r.serve ds).1 ++ ((r.serve ds).2.serve ds').1, ((r.serve ds).2.serve ds').2) := by
  induction ds generalizing r with
  | nil => rfl
  | cons d rest ih => simp only [List.cons_append, serve, ih]

theorem serve_singleton (r : Registry) (d : TaskDescriptor) : r.serve [d] =
    ([⟨d, (r.handle r.nextStamp (asking d)).1⟩], (r.handle r.nextStamp (asking d)).2) := by
  simp only [serve]

theorem handle_asking (r : Registry) (stamp : Stamp) (d : TaskDescriptor) :
    r.handle stamp (asking d) =
      match r.register stamp d with
      | (.error e, r) => (refusal e, r)
      | (.ok (element, created), r) =>
        (⟨if created then 201 else 200, .json (RegistrationResponse.json
          ⟨element.registrationId, element.descriptor.canonicalSignature, created⟩)⟩, r) :=
  (handle_sent r stamp d).trans (r.answer_eq (.of stamp d))

/-- A registry stays as it is, or takes the first descriptor of a signature. -/
theorem handle_asking_cases (r : Registry) (stamp : Stamp) (d : TaskDescriptor) :
    (r.handle stamp (asking d)).2 = r ∨ r.elements.get? d.canonicalSignature = none ∧
      (r.handle stamp (asking d)).2 = { r with
        elements := r.elements.insert d.canonicalSignature ⟨stamp.id, d, stamp.time⟩ } := by
  rw [handle_asking]
  unfold register
  cases d.breach? with
  | some reason => exact .inl rfl
  | none =>
    cases r.poisoned with
    | true => exact .inl rfl
    | false =>
      cases r.elements.get? d.canonicalSignature with
      | none => exact .inr ⟨rfl, rfl⟩
      | some e => by_cases hsame : e.descriptor = d <;> simp [hsame]

theorem poisoned_serve (r : Registry) (ds : List TaskDescriptor) :
    (r.serve ds).2.poisoned = r.poisoned := by
  induction ds generalizing r with
  | nil => rfl
  | cons d rest ih =>
    rw [serve, ih]
    obtain hsame | ⟨-, hnew⟩ := r.handle_asking_cases r.nextStamp d
    · rw [hsame]
    · rw [hnew]

/-- **What a registry holds stays as it is,** whatever it is sent. -/
theorem held_serve {signature : String} {e : RegisteredElement}
    (h : r.elements.get? signature = some e) (ds : List TaskDescriptor) :
    (r.serve ds).2.elements.get? signature = some e := by
  induction ds generalizing r with
  | nil => exact h
  | cons d rest ih =>
    refine ih (r := (r.handle r.nextStamp (asking d)).2) ?_
    obtain hsame | ⟨hnone, hnew⟩ := r.handle_asking_cases r.nextStamp d
    · rwa [hsame]
    · rw [hnew, Dict.get?_insert_of_ne]
      · exact h
      · rintro rfl
        cases hnone.symm.trans h

theorem held_serve_take {signature : String} {e : RegisteredElement} {sent : List TaskDescriptor}
    {l : Nat} (hkl : k ≤ l) (h : (r.serve (sent.take k)).2.elements.get? signature = some e) :
    (r.serve (sent.take l)).2.elements.get? signature = some e := by
  have hparts : sent.take l = sent.take k ++ (sent.take l).drop k := by
    have htake : (sent.take l).take k = sent.take k := by rw [List.take_take, Nat.min_eq_left hkl]
    rw [← htake, List.take_append_drop]
  rw [hparts, serve_append]
  exact held_serve h _

/-! ## Beginnings of a list -/

/-- Descriptors that keep the contract, of which no two share a signature. -/
structure Distinct (ds : List TaskDescriptor) : Prop where
  valid : ∀ d ∈ ds, d.breach? = none
  nodup : (ds.map (·.canonicalSignature)).Nodup

/-- The registry answers, and holds exactly the first descriptors of a list. -/
structure Stocks (r : Registry) (ds : List TaskDescriptor) (n : Nat) : Prop where
  usable : r.poisoned = false
  descriptors : ∀ signature, (r.elements.get? signature).map (·.descriptor) =
    (ds.take n).find? (·.canonicalSignature = signature)

theorem stocks_empty (ds : List TaskDescriptor) : ({} : Registry).Stocks ds 0 := ⟨rfl, fun _ => rfl⟩

/-- Among the first descriptors there is the one of a signature, unless it comes later. -/
theorem Distinct.find?_take (h : Distinct ds) (hk : k < ds.length) (n : Nat) :
    (ds.take n).find? (·.canonicalSignature = ds[k].canonicalSignature) =
      if k < n then some ds[k] else none := by
  -- a signature stands at one place of the list only
  have hinjective : ∀ i (hi : i < ds.length),
      ds[i].canonicalSignature = ds[k].canonicalSignature → i = k := by
    intro i hi heq
    have hsame : ds[i] = ds[k] :=
      List.inj_on_of_nodup_map h.nodup (List.getElem_mem hi) (List.getElem_mem hk) heq
    exact (List.Nodup.getElem_inj_iff (h.nodup.of_map _)).1 hsame
  split
  · next hlt =>
    rw [List.find?_eq_some_iff_getElem]
    refine ⟨by simp, k, by simp; omega, by simp, ?_⟩
    intro j hj
    have hne : ds[j].canonicalSignature ≠ ds[k].canonicalSignature := fun heq =>
      Nat.ne_of_lt hj (hinjective j (by omega) heq)
    simpa using hne
  · next hle =>
    rw [List.find?_eq_none]
    intro d hd
    obtain ⟨i, hi, rfl⟩ := List.getElem_of_mem hd
    rw [List.length_take] at hi
    have hne : ds[i].canonicalSignature ≠ ds[k].canonicalSignature := fun heq => by
      have := hinjective i (by omega) heq
      omega
    simpa using hne

/-- One descriptor more: one that is held is found, and the next one is taken. -/
theorem Stocks.handle (h : r.Stocks ds n) (hds : Distinct ds) (hk : k < ds.length) (hkn : k ≤ n)
    (stamp : Stamp) :
    (r.handle stamp (asking ds[k])).2.Stocks ds (max n (k + 1)) ∧
      (r.handle stamp (asking ds[k])).1.status = if k < n then 200 else 201 := by
  have hheld := h.descriptors ds[k].canonicalSignature
  rw [hds.find?_take hk] at hheld
  have hvalid := hds.valid ds[k] (List.getElem_mem hk)
  rw [handle_asking]
  simp only [register, hvalid, h.usable, Bool.false_eq_true, if_false]
  by_cases hlt : k < n
  · rw [if_pos hlt] at hheld ⊢
    obtain ⟨e, he, hdescriptor⟩ := Option.map_eq_some_iff.1 hheld
    simp only [he, if_pos hdescriptor]
    rw [Nat.max_eq_left hlt]
    exact ⟨h, rfl⟩
  · obtain rfl : k = n := Nat.le_antisymm hkn (Nat.le_of_not_lt hlt)
    rw [if_neg hlt] at hheld ⊢
    simp only [Option.map_eq_none_iff.1 hheld]
    rw [Nat.max_eq_right (Nat.le_succ k)]
    refine ⟨⟨rfl, fun signature => ?_⟩, rfl⟩
    rw [Dict.get?_insert, List.take_succ_eq_append_getElem hk, List.find?_append,
      List.find?_singleton, ← h.descriptors]
    by_cases hsignature : ds[k].canonicalSignature = signature
    · subst hsignature
      simp [hheld]
    · simp [hsignature]

/-- What a registry answers that is told beginnings of a list: it refuses nothing, and what is new
to it goes on where it has stopped. -/
structure Serves (r : Registry) (ds : List TaskDescriptor) (n : Nat) (sent : List TaskDescriptor)
    (m : Nat) : Prop where
  stocks : (r.serve sent).2.Stocks ds m
  statuses : ∀ x ∈ (r.serve sent).1, x.response.status = 200 ∨ x.response.status = 201
  created : (ds.take n).map (·.canonicalSignature) ++ created (r.serve sent).1 =
    (ds.take m).map (·.canonicalSignature)

section Serves

variable {sent : List TaskDescriptor} {m : Nat}

/-- What is new to a registry that holds nothing is a beginning of the list. -/
theorem Serves.created_prefix (h : r.Serves ds 0 sent m) :
    Registry.created (r.serve sent).1 <+: ds.map (·.canonicalSignature) := by
  have hcreated : Registry.created (r.serve sent).1 = (ds.take m).map (·.canonicalSignature) :=
    h.created
  rw [hcreated]
  exact (List.take_prefix m ds).map _

/-- What was new to a registry that held nothing is what it holds. -/
theorem Serves.contains_iff (h : r.Serves ds 0 sent m) (signature : String) :
    (r.serve sent).2.elements.contains signature = true ↔
      signature ∈ Registry.created (r.serve sent).1 := by
  have hcreated : Registry.created (r.serve sent).1 = (ds.take m).map (·.canonicalSignature) :=
    h.created
  have hheld := congrArg Option.isSome (h.stocks.descriptors signature)
  rw [Option.isSome_map] at hheld
  rw [Dict.contains, hheld, hcreated, List.find?_isSome]
  simp only [List.mem_map, decide_eq_true_eq]

end Serves

theorem Stocks.serves_nil (h : r.Stocks ds n) : r.Serves ds n [] n where
  stocks := h
  statuses _ hx := nomatch hx
  created := List.append_nil _

theorem Serves.append {sent sent' : List TaskDescriptor} {m l : Nat} (h : r.Serves ds n sent m)
    (h' : (r.serve sent).2.Serves ds m sent' l) : r.Serves ds n (sent ++ sent') l where
  stocks := by
    rw [serve_append]
    exact h'.stocks
  statuses := by
    rw [serve_append]
    exact List.forall_mem_append.2 ⟨h.statuses, h'.statuses⟩
  created := by
    rw [serve_append, created_append, ← List.append_assoc, h.created, h'.created]

theorem Stocks.serves_singleton (h : r.Stocks ds n) (hds : Distinct ds) (hk : k < ds.length)
    (hkn : k ≤ n) : r.Serves ds n [ds[k]] (max n (k + 1)) := by
  obtain ⟨hstocks, hstatus⟩ := h.handle hds hk hkn r.nextStamp
  refine ⟨hstocks, ?_, ?_⟩
  · have hok : (r.handle r.nextStamp (asking ds[k])).1.status = 200 ∨
        (r.handle r.nextStamp (asking ds[k])).1.status = 201 := by
      rw [hstatus]
      split
      · exact .inl rfl
      · exact .inr rfl
    exact List.forall_mem_singleton.2 hok
  · have hcreated : Registry.created (r.serve [ds[k]]).1 =
        if k < n then [] else [ds[k].canonicalSignature] := by
      rw [serve_singleton, Registry.created, List.filter_singleton, hstatus]
      by_cases hlt : k < n <;> simp [hlt]
    rw [hcreated]
    by_cases hlt : k < n
    · rw [if_pos hlt, Nat.max_eq_left hlt, List.append_nil]
    · obtain rfl : k = n := Nat.le_antisymm hkn (Nat.le_of_not_lt hlt)
      rw [if_neg hlt, Nat.max_eq_right (Nat.le_succ k), List.take_succ_eq_append_getElem hk,
        List.map_append, List.map_singleton]

/-- **A beginning of the list,** told to a registry that holds another one. -/
theorem Stocks.serves_take (h : r.Stocks ds n) (hds : Distinct ds) (hk : k ≤ ds.length) :
    r.Serves ds n (ds.take k) (max n k) := by
  induction k with
  | zero =>
    rw [List.take_zero, Nat.max_eq_left (Nat.zero_le n)]
    exact h.serves_nil
  | succ k ih =>
    have hbefore := ih (Nat.le_of_succ_le hk)
    have hstep := hbefore.stocks.serves_singleton hds hk (Nat.le_max_right n k)
    have hmax : max (max n k) (k + 1) = max n (k + 1) := by omega
    rw [hmax] at hstep
    rw [List.take_succ_eq_append_getElem hk]
    exact hbefore.append hstep

/-- **Beginnings of the list, one after another.** -/
theorem Stocks.serves_flatten (h : r.Stocks ds n) (hds : Distinct ds)
    {parts : List (List TaskDescriptor)} (hparts : ∀ part ∈ parts, part <+: ds) :
    ∃ m, r.Serves ds n parts.flatten m := by
  induction parts generalizing r n with
  | nil => exact ⟨n, h.serves_nil⟩
  | cons part rest ih =>
    obtain ⟨hpart, hrest⟩ := List.forall_mem_cons.1 hparts
    have hfirst := h.serves_take hds hpart.length_le
    rw [← List.prefix_iff_eq_take.1 hpart] at hfirst
    obtain ⟨m, hlater⟩ := ih hfirst.stocks hrest
    exact ⟨m, hfirst.append hlater⟩

end TaskStack.Registry
