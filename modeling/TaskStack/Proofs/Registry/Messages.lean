import TaskStack.Proofs.Json.RoundTrip
import TaskStack.Proofs.Time.RoundTrip
import TaskStack.Registry.Client

/-!
# Messages arrive as they were sent

What a client and the registry write is what the other one reads: a descriptor that is handed in,
the answer to one that was taken, and the reason of a refusal. No text in them is special, since
strings are written with escapes.

**Theorem (`json_faithful`).** The JSON text of a descriptor or of an answer is read back as that
descriptor or answer. So no two of them have the same text, not even in front of other texts.

* `TaskDescriptor.reads_write`, `RegistrationResponse.reads_write`: records and their readers.
* `RegisteredElement.reads_write`: an element, whose time is a text of its own.
* `refusalReason_refusal`: what a client makes of a refusal is the reason that the registry gave.
-/

namespace TaskStack

open Json

namespace TaskDescriptor

theorem gathers_fields (d : TaskDescriptor) : Gathers (recordField Parts.fields) {}
      [("canonical_signature", quote d.canonicalSignature),
        ("implementation_signature", writeOption quote d.implementationSignature),
        ("constraints", writeOption writeDict d.constraints),
        ("implementation_type", writeOption (fun t => quote t.name) d.implementationType),
        ("io", writeOption writeBool d.io),
        ("implementation_args", writeOption writeStrings d.implementationArgs)]
      ⟨some d.canonicalSignature, some d.implementationSignature, some d.constraints,
        some d.implementationType, some d.io, some d.implementationArgs⟩ := by
  refine .cons (recordField_reads rfl rfl (reads_quote _)) ?_
  refine .cons (recordField_reads rfl rfl (.option reads_quote opens_quote _)) ?_
  refine .cons (recordField_reads rfl rfl
    (.option (.dict reads_quote) (fun _ => opens_writeObject _) _)) ?_
  refine .cons (recordField_reads rfl rfl (.option
    (fun t => reads_name (ImplementationType.ofName?_name t)) (fun _ => opens_quote _) _)) ?_
  refine .cons (recordField_reads rfl rfl (.option reads_writeBool opens_writeBool _)) ?_
  refine .cons (recordField_reads rfl rfl
    (.option (.list reads_quote opens_quote) (fun _ => opens_writeArray _) _)) ?_
  exact .nil _

/-- **A descriptor is read back.** -/
theorem reads_write (d : TaskDescriptor) : Reads reader d.write d :=
  d.gathers_fields.record rfl

end TaskDescriptor

/-- **The answer to a descriptor is read back.** -/
theorem RegistrationResponse.reads_write (r : RegistrationResponse) : Reads reader r.write r := by
  have hgathers : Gathers (recordField Parts.fields) {}
      [("registration_id", quote r.registrationId),
        ("canonical_signature", quote r.canonicalSignature), ("created", writeBool r.created)]
      ⟨some r.registrationId, some r.canonicalSignature, some r.created⟩ := by
    refine .cons (recordField_reads rfl rfl (reads_quote _)) ?_
    refine .cons (recordField_reads rfl rfl (reads_quote _)) ?_
    refine .cons (recordField_reads rfl rfl (reads_writeBool _)) ?_
    exact .nil _
  exact hgathers.record rfl

/-! ## Elements -/

theorem reads_instant {t : Instant} (h : t.Valid) : Reads Reader.instant (quote t.text) t := by
  intro rest
  have hs := reads_quote t.text rest
  simp only [Reader.instant, hs, bind, Except.bind, Instant.ofText?_text h]

namespace RegisteredElement

/-- **An element is read back**, if it was registered at a time that can be written. -/
theorem reads_write (e : RegisteredElement) (h : e.registeredAt.Valid) :
    Reads reader e.write e := by
  have hgathers : Gathers (recordField Parts.fields) {}
      [("registration_id", quote e.registrationId), ("descriptor", e.descriptor.write),
        ("registered_at", quote e.registeredAt.text)]
      ⟨some e.registrationId, some e.descriptor, some e.registeredAt⟩ := by
    refine .cons (recordField_reads rfl rfl (reads_quote _)) ?_
    refine .cons (recordField_reads rfl rfl e.descriptor.reads_write) ?_
    refine .cons (recordField_reads rfl rfl (reads_instant h)) ?_
    exact .nil _
  exact hgathers.record rfl

variable {e e' : RegisteredElement}

theorem ofJson_json (h : e.registeredAt.Valid) : ofJson e.json = .ok e := (e.reads_write h).all

theorem json_inj (h : e.registeredAt.Valid) (h' : e'.registeredAt.Valid)
    (hjson : e.json = e'.json) : e = e' :=
  Except.ok.inj ((ofJson_json h).symm.trans ((congrArg ofJson hjson).trans (ofJson_json h')))

end RegisteredElement

/-! ## Texts -/

theorem TaskDescriptor.write_ne_write (d : TaskDescriptor) (r : RegistrationResponse)
    (rest rest' : List Char) : d.write ++ rest ≠ r.write ++ rest' := by
  -- the names of their first fields begin differently
  intro h
  simp [write, RegistrationResponse.write, writeObject, commaJoin, quote, escape,
    List.flatMap_cons] at h

/-- **The texts of messages stand for them.** A message is read back from its text, and two messages
have different texts, whatever follows the texts. -/
theorem json_faithful :
    (∀ d : TaskDescriptor, TaskDescriptor.ofJson d.json = .ok d) ∧
    (∀ r : RegistrationResponse, RegistrationResponse.ofJson r.json = .ok r) ∧
    Function.Injective TaskDescriptor.json ∧ Function.Injective RegistrationResponse.json ∧
    (Function.Injective fun x : TaskDescriptor × List Char => x.1.write ++ x.2) ∧
    (Function.Injective fun x : RegistrationResponse × List Char => x.1.write ++ x.2) ∧
    ∀ (d : TaskDescriptor) (r : RegistrationResponse) (rest rest' : List Char),
      d.write ++ rest ≠ r.write ++ rest' := by
  have hd (d : TaskDescriptor) : TaskDescriptor.ofJson d.json = .ok d := d.reads_write.all
  have hr (r : RegistrationResponse) : RegistrationResponse.ofJson r.json = .ok r :=
    r.reads_write.all
  refine ⟨hd, hr, ?_, ?_, injective_of_reads TaskDescriptor.reads_write,
    injective_of_reads RegistrationResponse.reads_write, TaskDescriptor.write_ne_write⟩
  · intro d d' h
    exact Except.ok.inj ((hd d).symm.trans ((congrArg _ h).trans (hd d')))
  · intro r r' h
    exact Except.ok.inj ((hr r).symm.trans ((congrArg _ h).trans (hr r')))

theorem Value.dict?_ofDict (d : Dict Value) : (ofDict d).dict? = some d := by
  rw [ofDict, dict?, Dict.ofList_entries]

namespace Registry

/-- The reason of a refusal. -/
def Refusal.reason : Refusal → String
  | .invalid reason | .conflict reason => reason
  | .poisoned => "estado interno envenenado"

theorem refusalReason_error (reason : String) : refusalReason (refusal.error reason) = reason := by
  have hgathers : Gathers (entryField (readValue (126 + 1))) ∅ [("error", quote reason)]
      ((∅ : Dict Value).insert "error" (.string reason)) := by
    refine .cons (fun rest => ?_) (.nil _)
    simp [entryField, expectColon, skipBlank_cons, isBlank, reads_value_string _ _ rest, bind,
      Except.bind]
  have hread : read (refusal.error reason) =
      .ok (.ofDict ((∅ : Dict Value).insert "error" (.string reason))) := hgathers.value.all
  simp [refusalReason, hread, Value.dict?_ofDict, Value.string?]

/-- **A client reads the reason of a refusal as the registry gave it.** -/
theorem refusalReason_refusal (e : Refusal) :
    refusalReason (refusal e).body.content = e.reason := by
  cases e <;> exact refusalReason_error _

end Registry
end TaskStack
