import TaskStack.Proofs.Engine.Local
import TaskStack.Proofs.Registry.Posts

/-!
# A registry takes what a local engine takes

An engine that hands its descriptors to a registry and one that keeps them in its ledger cannot be
told apart by what they take. The one checks a descriptor, writes it down and sends it; the registry
reads it, checks it again and looks it up; and its answer is read back into a result. The other
looks the descriptor up in a list. Both keep the first descriptor of a signature.

**State.** Two engines agree (`Engine.Agree`) if one is connected to a registry that holds under
every signature the descriptor that the ledger of the other holds.

**Theorem (`registerAll_agree`).** A fresh pair of such engines agrees after any descriptors, and
answers the next one alike: both take it, or both refuse it in the name of its signature. If it
breaks the contract they give the same reason.

* `Connection.register_of_validate`: what a client makes of the answer of a registry.
* `Engine.Agree.register`: one descriptor more.
-/

namespace TaskStack

open Http

/-! ## One descriptor over a connection -/

theorem Registry.handle_sent (r : Registry) (stamp : Stamp) (d : TaskDescriptor) :
    r.handle stamp ⟨"POST", (Url.ofText Connection.elementsPath).target, some "application/json",
      d.json⟩ = r.answer (Post.of stamp d) := by
  have htarget : (Url.ofText Connection.elementsPath).target = "/api/v1/core-elements" := by
    decide +kernel
  rw [htarget]
  rfl

/-- The refusal of a descriptor, as a client understands it. -/
theorem rejection_refusal (signature : String) {e : Registry.Refusal} (h : e ≠ .poisoned) :
    rejection signature (Registry.refusal e).status (Registry.refusal e).body.content =
      .rejected signature e.reason := by
  rw [rejection, Registry.refusalReason_refusal]
  cases e with
  | poisoned => exact absurd rfl h
  | _ => rfl

/-- A registry that answers has a reason of its own for every refusal. -/
theorem Registry.ne_poisoned_of_register {r : Registry} (hr : r.poisoned = false) {stamp : Stamp}
    {d : TaskDescriptor} {e : Refusal} (h : (r.register stamp d).1 = .error e) : e ≠ .poisoned := by
  rintro rfl
  unfold Registry.register at h
  rw [hr] at h
  split at h
  · cases h
  · simp only [Bool.false_eq_true, if_false] at h
    split at h
    · split at h <;> cases h
    · cases h

theorem isSuccess_refusal (e : Registry.Refusal) :
    isSuccess (Registry.refusal e).status = false := by
  cases e <;> rfl

/-- **A client takes over the decision of the registry.** -/
theorem Connection.register_of_validate (address : String) {r : Registry}
    (hr : r.poisoned = false) {d : TaskDescriptor} (hd : d.validate = .ok ()) :
    (⟨address, .registry r⟩ : Connection).register d =
      (match (r.register r.nextStamp d).1 with
        | .ok _ => .ok ()
        | .error e => .error (.rejected d.canonicalSignature e.reason),
      ⟨address, .registry (r.register r.nextStamp d).2⟩) := by
  have hsent : (⟨address, .registry r⟩ : Connection).send "POST" (Url.ofText elementsPath)
      (some "application/json") d.json =
        (.ok (r.answer (.of r.nextStamp d)).1,
          ⟨address, .registry (r.answer (.of r.nextStamp d)).2⟩) := by
    rw [← Registry.handle_sent]
    rfl
  have hanswer := r.answer_eq (.of r.nextStamp d)
  have hdescriptor : (Registry.Post.of r.nextStamp d).descriptor = d := rfl
  have hstamp : (Registry.Post.of r.nextStamp d).stamp = r.nextStamp := rfl
  rw [hdescriptor, hstamp] at hanswer
  simp only [register, hd, hsent, hanswer]
  cases hregister : r.register r.nextStamp d with
  | mk result r' =>
    cases result with
    | error e =>
      have hne : e ≠ .poisoned :=
        Registry.ne_poisoned_of_register hr (congrArg Prod.fst hregister)
      simp only [isSuccess_refusal, Bool.not_false, if_true, rejection_refusal _ hne]
    | ok taken =>
      obtain ⟨element, created⟩ := taken
      have hread : RegistrationResponse.ofJson _ = _ := (RegistrationResponse.reads_write
        ⟨element.registrationId, element.descriptor.canonicalSignature, created⟩).all
      have hsuccess : isSuccess (if created = true then 201 else 200) = true := by
        cases created <;> rfl
      simp only [hsuccess, Bool.not_true, Bool.false_eq_true, if_false, Body.content,
        RegistrationResponse.json, hread]

/-! ## The two stores -/

/-- The registry answers, and holds under every signature what the ledger holds. -/
structure Registry.Mirrors (r : Registry) (l : Ledger) : Prop where
  usable : r.poisoned = false
  descriptors : ∀ signature,
    (r.elements.get? signature).map (·.descriptor) = l.descriptor? signature

/-- What the two stores say to a descriptor that keeps the contract: both take it, or each has
another one of the signature. -/
inductive Registry.SameDecision (d : TaskDescriptor) :
    Except Refusal (RegisteredElement × Bool) → Except HandoffError Unit → Prop
  | taken (element : RegisteredElement) (created : Bool) :
      SameDecision d (.ok (element, created)) (.ok ())
  | conflict : SameDecision d
      (.error (.conflict (d.canonicalSignature ++ " ya está registrado con otro contenido")))
      (.error (.rejected d.canonicalSignature "ya registrado con otro contenido"))

/-- **The stores take the same descriptors and hold the same afterwards.** -/
theorem Registry.Mirrors.register {r : Registry} {l : Ledger} (h : r.Mirrors l)
    {d : TaskDescriptor} (hd : d.breach? = none) (stamp : Stamp) :
    (r.register stamp d).2.Mirrors (l.register d).2 ∧
      SameDecision d (r.register stamp d).1 (l.register d).1 := by
  have hvalidate : d.validate = .ok () := by rw [TaskDescriptor.validate, hd]
  have hheld := h.descriptors d.canonicalSignature
  simp only [Registry.register, hd, h.usable, Bool.false_eq_true, if_false, Ledger.register,
    hvalidate, ← hheld]
  cases hget : r.elements.get? d.canonicalSignature with
  | none =>
    rw [hget, Option.map_none] at hheld
    dsimp only [Option.map_none]
    refine ⟨⟨rfl, fun signature => ?_⟩, .taken ..⟩
    simp only [Dict.get?_insert, Ledger.descriptor?_append]
    by_cases hsignature : d.canonicalSignature = signature
    · subst hsignature
      simp [← hheld]
    · simp [hsignature, h.descriptors]
  | some e =>
    by_cases hsame : e.descriptor = d
    · simp only [Option.map_some, if_pos hsame]
      exact ⟨h, .taken ..⟩
    · simp only [Option.map_some, if_neg hsame]
      exact ⟨h, .conflict⟩

/-! ## The two engines -/

namespace Engine

/-- One engine is connected to a registry that mirrors the ledger of the other. -/
structure Agree (address : String) (remote here : Engine) : Prop where
  registerScript : remote.registerScript = []
  isLocal : here.IsLocal
  mirrors : ∃ r, remote.connection = some ⟨address, .registry r⟩ ∧ r.Mirrors here.ledger

/-- The answer of an engine that refuses a descriptor in the name of its signature. -/
def refused (d : TaskDescriptor) (reason : String) : Except Fault Unit :=
  .error (.error (.handoff (.rejected d.canonicalSignature reason)))

/-- Answers of the two engines to a descriptor that say the same. -/
inductive AnsweredAlike (d : TaskDescriptor) : Except Fault Unit → Except Fault Unit → Prop
  | taken : d.breach? = none → AnsweredAlike d (.ok ()) (.ok ())
  | breach {reason : String} : d.breach? = some reason →
      AnsweredAlike d (refused d reason) (refused d reason)
  | conflict : d.breach? = none → AnsweredAlike d
      (refused d (d.canonicalSignature ++ " ya está registrado con otro contenido"))
      (refused d "ya registrado con otro contenido")

theorem register_of_connected {e : Engine} (hscript : e.registerScript = []) {c : Connection}
    (hc : e.connection = some c) (d : TaskDescriptor) : e.register d =
      ((c.register d).1.mapError fun x => .error (.handoff x),
        { e with connection := some (c.register d).2 }) := by
  simp only [register, hscript, registerByReply, keep, hc]

section

variable {address : String} {remote here : Engine}

/-- **One descriptor more.** -/
theorem Agree.register (h : Agree address remote here) (d : TaskDescriptor) :
    Agree address (remote.register d).2 (here.register d).2 ∧
      AnsweredAlike d (remote.register d).1 (here.register d).1 := by
  obtain ⟨r, hconnection, hmirrors⟩ := h.mirrors
  rw [register_of_connected h.registerScript hconnection, register_of_isLocal h.isLocal]
  cases hbreach : d.breach? with
  | some reason =>
    have hvalidate : d.validate = .error (.rejected d.canonicalSignature reason) := by
      rw [TaskDescriptor.validate, hbreach]
    simp only [Connection.register, Ledger.register, hvalidate]
    exact ⟨⟨h.registerScript, h.isLocal.withLedger _, r, rfl, hmirrors⟩, .breach hbreach⟩
  | none =>
    have hvalidate : d.validate = .ok () := by rw [TaskDescriptor.validate, hbreach]
    rw [Connection.register_of_validate address hmirrors.usable hvalidate]
    obtain ⟨hmirrors', hdecision⟩ := hmirrors.register hbreach r.nextStamp
    refine ⟨⟨h.registerScript, h.isLocal.withLedger _, _, rfl, hmirrors'⟩, ?_⟩
    generalize (r.register r.nextStamp d).1 = decided at hdecision
    generalize (here.ledger.register d).1 = decided' at hdecision
    cases hdecision with
    | taken => exact .taken hbreach
    | conflict => exact .conflict hbreach

/-- An engine after some descriptors. -/
def registerAll (e : Engine) (ds : List TaskDescriptor) : Engine :=
  ds.foldl (fun e d => (e.register d).2) e

theorem Agree.registerAll (h : Agree address remote here) (ds : List TaskDescriptor) :
    Agree address (remote.registerAll ds) (here.registerAll ds) := by
  induction ds generalizing remote here with
  | nil => exact h
  | cons d ds ih => exact ih (h.register d).1

end

theorem agree_fresh (address : String) :
    Agree address { connection := some ⟨address, .registry {}⟩ } {} where
  registerScript := rfl
  isLocal := ⟨rfl, rfl, rfl⟩
  mirrors := ⟨{}, rfl, rfl, fun _ => rfl⟩

/-- **A fresh registry takes what a fresh local engine takes, and they hold the same.** -/
theorem registerAll_agree (address : String) (ds : List TaskDescriptor) :
    let remote : Engine := { connection := some ⟨address, .registry {}⟩ }
    let here : Engine := {}
    (∀ d, AnsweredAlike d ((remote.registerAll ds).register d).1
      ((here.registerAll ds).register d).1) ∧
    ∃ r, (remote.registerAll ds).connection = some ⟨address, .registry r⟩ ∧
      ∀ signature, (r.elements.get? signature).map (·.descriptor) =
        (here.registerAll ds).ledger.descriptor? signature := by
  intro remote here
  have h := (agree_fresh address).registerAll ds
  obtain ⟨r, hconnection, hmirrors⟩ := h.mirrors
  exact ⟨fun d => (h.register d).2, r, hconnection, hmirrors.descriptors⟩

end Engine
end TaskStack
