import TaskStack.Proofs.Registry.Serve

/-!
# An engine that is wired to a registry

An engine that is connected to a registry hands on what it is handed and answers as the registry
does. So where the registry stands is decided by what the engine was handed, if all of it keeps the
contract.

**State.** A connection was told (`Told`) what it was handed over: the registry behind it is where
these descriptors lead it, and unless it refused one of them, no hand-over failed. An engine is
wired (`Fleet.Wired`) if its connection was told all that it was handed.

* `Fleet.handOvers`: what an engine was handed, and its answers.
* `Fleet.Wired.register`, `Fleet.Wired.submit`: an engine stays wired.
-/

namespace TaskStack

open Http

/-! ## What an engine was handed -/

/-- A descriptor that was handed over, and the answer to it. -/
structure HandOver where
  descriptor : TaskDescriptor
  answer : Except Fault Unit

/-- What an engine was handed in an event. -/
def Event.handOver? (engine : EngineId) : Event → Option HandOver
  | .register i _ d answer => if i = engine then some ⟨d, answer⟩ else none
  | _ => none

namespace Fleet

variable {f : Fleet} {engine : EngineId}

/-- What an engine was handed, in its order. -/
def handOvers (f : Fleet) (engine : EngineId) : List HandOver :=
  (f.history.filterMap (Event.handOver? engine)).reverse

/-- The descriptors that an engine was handed, in their order. -/
def sent (f : Fleet) (engine : EngineId) : List TaskDescriptor :=
  (f.handOvers engine).map (·.descriptor)

/-- A descriptor is sent, unless there is no such engine. -/
theorem sent_register (f : Fleet) (engine : EngineId) (o : Origin) (d : TaskDescriptor) :
    (f.register engine o d).2.sent engine = f.sent engine ++ [d] ∨
      (f.register engine o d).2.sent engine = f.sent engine ∧
        (f.register engine o d).1 ≠ .ok () := by
  obtain ⟨-, h⟩ | ⟨answer, engines, h⟩ := f.register_cases engine o d
  · rw [h]
    exact .inr ⟨rfl, nofun⟩
  · rw [h]
    exact .inl (by simp [sent, handOvers, Event.handOver?])

theorem handOvers_submit (f : Fleet) (i : EngineId) (o : Origin) (d : TaskDescriptor)
    (schema : Schema) (args : Args) :
    (f.submit i o d schema args).2.handOvers engine = f.handOvers engine := by
  obtain ⟨-, h⟩ | ⟨admission, engines, h⟩ := f.submit_cases i o d schema args
  · rw [h]
  · rw [h]
    rfl

theorem sent_submit (f : Fleet) (i : EngineId) (o : Origin) (d : TaskDescriptor) (schema : Schema)
    (args : Args) : (f.submit i o d schema args).2.sent engine = f.sent engine :=
  congrArg (List.map _) (f.handOvers_submit i o d schema args)

theorem handOvers_register {i : EngineId} {e : Engine} (he : f.engines[i]? = some e) (o : Origin)
    (d : TaskDescriptor) :
    (f.register i o d).2.handOvers i = f.handOvers i ++ [⟨d, (e.register d).1⟩] := by
  simp [register, he, handOvers, Event.handOver?, log, setEngine]

theorem handOvers_register_of_ne {i j : EngineId} (h : i ≠ j) (o : Origin) (d : TaskDescriptor) :
    (f.register i o d).2.handOvers j = f.handOvers j := by
  obtain ⟨-, hf⟩ | ⟨answer, engines, hf⟩ := f.register_cases i o d
  · rw [hf]
  · rw [hf]
    simp [handOvers, Event.handOver?, h]

theorem sent_prefix_register (f : Fleet) (i j : EngineId) (o : Origin) (d : TaskDescriptor) :
    f.sent j <+: (f.register i o d).2.sent j :=
  (List.reverse_prefix.2 ((f.history_suffix_register i o d).filterMap _)).map _

end Fleet

/-! ## Connections -/

/-- A client that sends a descriptor goes by the status of the answer. -/
theorem Connection.register_asking (address : String) {r : Registry} (hr : r.poisoned = false)
    {d : TaskDescriptor} (hd : d.breach? = none) :
    let asked := r.handle r.nextStamp (Registry.asking d)
    let answer := (⟨address, .registry r⟩ : Connection).register d
    answer.2 = ⟨address, .registry asked.2⟩ ∧
      (isSuccess asked.1.status = true → answer.1 = .ok ()) := by
  have hvalidate : d.validate = .ok () := by rw [TaskDescriptor.validate, hd]
  rw [register_of_validate address hr hvalidate, Registry.handle_asking]
  generalize r.register r.nextStamp d = decided
  obtain ⟨e | ⟨element, created⟩, r'⟩ := decided
  · exact ⟨rfl, fun hsuccess => by simp [isSuccess_refusal] at hsuccess⟩
  · exact ⟨rfl, fun _ => rfl⟩

/-- A connection to a registry after hand-overs. The registry got their descriptors; and if it
refused none, then none of them failed. -/
structure Told (address : String) (r : Registry) (hs : List HandOver) (c : Connection) : Prop where
  connection : c = ⟨address, .registry (r.serve (hs.map (·.descriptor))).2⟩
  accepted : (∀ x ∈ (r.serve (hs.map (·.descriptor))).1, isSuccess x.response.status = true) →
    ∀ h ∈ hs, h.answer = .ok ()

section Told

variable {address : String} {r : Registry} {hs hs' : List HandOver} {c c' : Connection}

theorem told_nil (address : String) (r : Registry) : Told address r [] ⟨address, .registry r⟩ where
  connection := rfl
  accepted _ _ hmem := by cases hmem

theorem Told.append (h : Told address r hs c)
    (h' : Told address (r.serve (hs.map (·.descriptor))).2 hs' c') :
    Told address r (hs ++ hs') c' := by
  constructor
  · simp only [List.map_append, Registry.serve_append]
    exact h'.connection
  · simp only [List.map_append, Registry.serve_append]
    intro hsuccess
    obtain ⟨hbefore, hafter⟩ := List.forall_mem_append.1 hsuccess
    exact List.forall_mem_append.2 ⟨h.accepted hbefore, h'.accepted hafter⟩

/-- One descriptor more. -/
theorem Told.register (h : Told address r hs c) (hr : r.poisoned = false) {d : TaskDescriptor}
    (hd : d.breach? = none) :
    Told address r (hs ++ [⟨d, (c.register d).1.mapError fun x => .error (.handoff x)⟩])
      (c.register d).2 := by
  have hr' := (r.poisoned_serve (hs.map (·.descriptor))).trans hr
  obtain ⟨hconnection, hsuccess⟩ := Connection.register_asking address hr' hd
  rw [← h.connection] at hconnection hsuccess
  refine h.append ⟨?_, ?_⟩
  · simp only [List.map_singleton, Registry.serve_singleton]
    exact hconnection
  · simp only [List.map_singleton, Registry.serve_singleton]
    intro hall handOver hmem
    have hstatus := hall _ (List.mem_singleton_self _)
    rw [List.mem_singleton.1 hmem, hsuccess hstatus]
    rfl

end Told

/-! ## Engines -/

theorem Engine.submit_keeps (e : Engine) (signature : String) (args : Args) :
    (e.submit signature args).2.registerScript = e.registerScript ∧
      (e.submit signature args).2.connection = e.connection := by
  unfold submit
  split
  · exact ⟨rfl, rfl⟩
  · next reply rest h => cases reply <;> exact ⟨rfl, rfl⟩

namespace Fleet

variable {f : Fleet} {engine : EngineId} {address : String} {r : Registry}

/-- The engine acts by itself, and its connection was told all that it was handed. -/
def Wired (f : Fleet) (engine : EngineId) (address : String) (r : Registry) : Prop :=
  ∃ e c, f.engines[engine]? = some e ∧ e.registerScript = [] ∧ e.connection = some c ∧
    Told address r (f.handOvers engine) c

/-- An engine that is handed nothing keeps its connection. -/
theorem Wired.of_handOvers (h : f.Wired engine address r) {f' : Fleet}
    (hhandOvers : f'.handOvers engine = f.handOvers engine)
    (hengine : ∀ e, f.engines[engine]? = some e → ∃ e', f'.engines[engine]? = some e' ∧
      e'.registerScript = e.registerScript ∧ e'.connection = e.connection) :
    f'.Wired engine address r := by
  obtain ⟨e, c, he, hscript, hconnection, htold⟩ := h
  obtain ⟨e', he', hscript', hconnection'⟩ := hengine e he
  exact ⟨e', c, he', hscript'.trans hscript, hconnection'.trans hconnection, hhandOvers ▸ htold⟩

theorem engines_setEngine_of_ne (f : Fleet) {i j : EngineId} (e : Engine) (h : i ≠ j) :
    (f.setEngine i e).engines[j]? = f.engines[j]? := by
  simp [setEngine, h]

theorem Wired.submit (h : f.Wired engine address r) (i : EngineId) (o : Origin)
    (d : TaskDescriptor) (schema : Schema) (args : Args) :
    (f.submit i o d schema args).2.Wired engine address r := by
  refine h.of_handOvers (f.handOvers_submit i o d schema args) fun e he => ?_
  by_cases hi : i = engine
  · subst hi
    simp only [Fleet.submit, he]
    exact ⟨_, engines_setEngine he _, e.submit_keeps d.canonicalSignature args⟩
  · refine ⟨e, ?_, rfl, rfl⟩
    unfold Fleet.submit
    split
    · exact he
    · exact (f.engines_setEngine_of_ne _ hi).trans he

/-- An engine stays wired if all that it was handed keeps the contract. -/
theorem Wired.register (h : f.Wired engine address r) (hr : r.poisoned = false) (i : EngineId)
    (o : Origin) (d : TaskDescriptor)
    (hvalid : ∀ x ∈ (f.register i o d).2.sent engine, x.breach? = none) :
    (f.register i o d).2.Wired engine address r := by
  by_cases hi : i = engine
  · subst hi
    obtain ⟨e, c, he, hscript, hconnection, htold⟩ := h
    have hregister := Engine.register_of_connected hscript hconnection d
    have hhandOvers := handOvers_register he o d
    have hd : d.breach? = none := hvalid d (by simp [sent, hhandOvers])
    refine ⟨(e.register d).2, (c.register d).2, ?_, ?_, ?_, ?_⟩
    · simp only [Fleet.register, he]
      exact engines_setEngine he _
    · rw [hregister]
      exact hscript
    · rw [hregister]
    · rw [hhandOvers, hregister]
      exact htold.register hr hd
  · refine h.of_handOvers (handOvers_register_of_ne hi o d) fun e he => ⟨e, ?_, rfl, rfl⟩
    unfold Fleet.register
    split
    · exact he
    · exact (f.engines_setEngine_of_ne _ hi).trans he

end Fleet
end TaskStack
