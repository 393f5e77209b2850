import TaskStack.CommandLine.Program
import TaskStack.Proofs.CommandLine.Stages
import TaskStack.Proofs.Session.Definitions

/-!
# Running the demonstration again

Every run of the demonstration is a process of its own. It remembers nothing of the runs before it,
and hands over its descriptors anew. Only the registry lasts, and it is told beginnings of one list,
one after another: runs stop where a call fails, and other roles hand over nothing.

**State.** After some runs the connection was told what they have handed over (`Told`), which is
beginnings of the list. A run keeps that because its engine is wired to the connection.

**Theorem (`executions_never_conflict`).** Whatever runs there are, the registry takes everything
that it is told. The signatures that it holds are the first ones of four, in the order in which it
took them, and what it holds under them stays as it is.

* `wired_of_moves`: whatever a run does, its engine stays wired.
* `handOvers_of_fine`: a submitter that ends without a fault has handed over the whole list.
* `run_told`, `executions_told`: a run, and runs one after another.
-/

namespace TaskStack

/-! ## A run -/

namespace CommandLine.Demonstration

open Catalogue

theorem callByName_moves (s : Session) (name : String) (args : Args) :
    s.Moves (s.callByName name args).2 :=
  Session.callNamed_moves (fun id args s => Session.callWithin_moves _ id args s) name args s

theorem callTasks_moves (s : Session) (value : Int64) : s.Moves (callTasks s value).2 := by
  unfold callTasks
  have hincrement := callByName_moves s "increment" (Args.ofPositional [.int value])
  generalize s.callByName "increment" _ = answer at hincrement ⊢
  obtain ⟨fault | increment, s₁⟩ := answer
  · exact hincrement
  dsimp only
  cases grid value with
  | error abort => exact hincrement
  | ok grid =>
    have hsolve := hincrement.trans (callByName_moves s₁ "solve" (Args.ofPositional [grid]))
    dsimp only
    generalize s₁.callByName "solve" _ = answer at hsolve ⊢
    obtain ⟨fault | solve, s₂⟩ := answer
    · exact hsolve
    have hscale := hsolve.trans
      (callByName_moves s₂ "scale" (({} : Args).setNamed "x" (.int value)))
    dsimp only
    generalize s₂.callByName "scale" _ = answer at hscale ⊢
    obtain ⟨fault | scale, s₃⟩ := answer
    · exact hscale
    · exact hscale

theorem rounds_moves (value : Int64) (numbers : List Nat) (s : Session) :
    s.Moves (rounds value numbers s).2 := by
  induction numbers generalizing s with
  | nil => exact .refl
  | cons number rest ih =>
    have hround := callTasks_moves s value
    rw [rounds]
    generalize callTasks s value = answer at hround ⊢
    obtain ⟨fault | answers, s'⟩ := answer
    · exact hround
    · exact hround.trans (ih s')

/-- What the engine of a run was handed, and what it answered. -/
def handOvers (role : Role) (value : Int64) (c : Connection) : List HandOver :=
  match start role c with
  | .error _ => []
  | .ok p =>
    match p.engine with
    | none => []
    | some engine => (rounds value [1, 2] p.session).2.fleet.handOvers engine

variable {address : String} {r : Registry}

/-- The engine of a run stays wired while all it is handed keeps the contract. -/
theorem wired_of_moves (hr : r.poisoned = false) {s s' : Session} (h : s.Moves s')
    (hs : s.fleet.Wired 0 address r) (hvalid : ∀ d ∈ s'.fleet.sent 0, d.breach? = none) :
    s'.fleet.Wired 0 address r := by
  refine h.keeps (I := fun s => (∀ d ∈ s.fleet.sent 0, d.breach? = none) →
    s.fleet.Wired 0 address r) ?_ (fun _ => hs) hvalid
  intro s s' hmove hwired
  refine hmove.fleet (I := fun f => (∀ d ∈ f.sent 0, d.breach? = none) → f.Wired 0 address r)
    ?_ ?_ ?_ hwired
  · -- what was handed over only grows, so it kept the contract before as well
    intro f i o d hf hvalid
    have hbefore := hf fun x hx => hvalid x ((f.sent_prefix_register i 0 o d).subset hx)
    exact hbefore.register hr i o d hvalid
  · intro f i o d schema args hf hvalid
    rw [f.sent_submit] at hvalid
    exact (hf hvalid).submit i o d schema args
  · intro f id role hf hvalid
    exact (hf hvalid).of_handOvers rfl fun e he => ⟨e, he, rfl, rfl⟩

/-- What is at the other end of the connection after a run. -/
theorem run_connection {role : Role} {c : Connection} {p : Process} (hp : start role c = .ok p)
    (value : Int64) : (run role value c).2 =
      ((p.engine.bind (rounds value [1, 2] p.session).2.engine?).bind (·.connection)).getD c := by
  simp only [run, hp]
  split <;> rfl

theorem run_fault {role : Role} {c : Connection} {p : Process} (hp : start role c = .ok p)
    (value : Int64) : (run role value c).1.fault = (rounds value [1, 2] p.session).1.fault := by
  simp only [run, hp]
  cases hfault : (rounds value [1, 2] p.session).1.fault with
  | none => rfl
  | some fault => exact hfault

/-- A submitter whose run ends without a fault has handed over the whole list. -/
theorem handOvers_of_fine {value : Int64} {c : Connection}
    (hfine : (run .submitter value c).1.fault = none) :
    (handOvers .submitter value c).map (·.descriptor) = descriptors := by
  obtain ⟨p, hp, hengine, -, hstage⟩ := stage_start c
  obtain ⟨m, hsent, hm⟩ := hstage.rounds value [1, 2]
  rw [run_fault hp] at hfine
  have hwhole : descriptors.length ≤ m := hm hfine (.inr nofun)
  rw [List.take_of_length_le hwhole] at hsent
  simp only [handOvers, hp, hengine]
  exact hsent

/-- A process without an engine of its own hands over nothing. -/
theorem handOvers_of_engine_eq_none {role : Role} {c : Connection} {p : Process}
    (hp : start role c = .ok p) (hengine : p.engine = none) (value : Int64) :
    handOvers role value c = [] ∧ (run role value c).2 = c := by
  rw [run_connection hp, hengine]
  simp [handOvers, hp, hengine]

/-- **A run** hands over a beginning of the list, and leaves the registry as this leads it. -/
theorem run_told (role : Role) (value : Int64) (hr : r.poisoned = false) :
    let hs := handOvers role value ⟨address, .registry r⟩
    hs.map (·.descriptor) <+: descriptors ∧
      Told address r hs (run role value ⟨address, .registry r⟩).2 := by
  intro hs
  have hnone {p : Process} (hp : start role ⟨address, .registry r⟩ = .ok p)
      (hengine : p.engine = none) : hs.map (·.descriptor) <+: descriptors ∧
        Told address r hs (run role value ⟨address, .registry r⟩).2 := by
    obtain ⟨hhandOvers, hconnection⟩ := handOvers_of_engine_eq_none hp hengine value
    rw [hconnection, show hs = [] from hhandOvers]
    exact ⟨List.nil_prefix, told_nil address r⟩
  cases role with
  | unset => exact hnone rfl rfl
  | worker => exact hnone rfl rfl
  | submitter =>
    obtain ⟨p, hp, hengine, hfleet, hstage⟩ := stage_start ⟨address, .registry r⟩
    obtain ⟨m, hsent, -⟩ := hstage.rounds value [1, 2]
    have hwired : p.session.fleet.Wired 0 address r := by
      rw [hfleet]
      exact ⟨_, _, rfl, rfl, rfl, told_nil address r⟩
    have hvalid : ∀ d ∈ (rounds value [1, 2] p.session).2.fleet.sent 0, d.breach? = none := by
      rw [hsent]
      exact fun d hd => valid_descriptors d (List.mem_of_mem_take hd)
    obtain ⟨e, c, he, -, hconnection, htold⟩ :=
      wired_of_moves hr (rounds_moves value [1, 2] p.session) hwired hvalid
    have hhandOvers : hs = (rounds value [1, 2] p.session).2.fleet.handOvers 0 := by
      simp only [hs, handOvers, hp, hengine]
    have hafter : (run .submitter value ⟨address, .registry r⟩).2 = c := by
      rw [run_connection hp, hengine]
      simp [Session.engine?, he, hconnection]
    rw [hhandOvers, hafter]
    refine ⟨?_, htold⟩
    show Fleet.sent _ 0 <+: descriptors
    rw [hsent]
    exact List.take_prefix m descriptors

end CommandLine.Demonstration

/-! ## Runs one after another -/

namespace CommandLine

open Catalogue

/-- A run of the program: the role that the environment names, the one it is given, and the
value. -/
structure Execution where
  environment : Option String := none
  given : Option String := none
  value : Int64

namespace Execution

/-- The connection after an execution, which is a process of its own. -/
def perform (e : Execution) (c : Connection) : Connection :=
  ((Invocation.run e.given e.value).perform ⟨e.environment, c⟩).2

/-- What an execution hands over, and the answers. A name that names no role ends it before. -/
def handOvers (e : Execution) (c : Connection) : List HandOver :=
  match Role.ofText (roleName ⟨e.environment, c⟩ e.given) with
  | .error _ => []
  | .ok role => Demonstration.handOvers role e.value c

end Execution

/-- The connection after executions, one after another. -/
def performAll : List Execution → Connection → Connection
  | [], c => c
  | e :: rest, c => performAll rest (e.perform c)

/-- What the executions hand over, one after another. -/
def handOversAll : List Execution → Connection → List HandOver
  | [], _ => []
  | e :: rest, c => e.handOvers c ++ handOversAll rest (e.perform c)

variable {address : String} {r : Registry}

theorem Execution.told (e : Execution) (address : String) (hr : r.poisoned = false) :
    let hs := e.handOvers ⟨address, .registry r⟩
    hs.map (·.descriptor) <+: descriptors ∧
      Told address r hs (e.perform ⟨address, .registry r⟩) := by
  unfold handOvers perform Invocation.perform demonstrate
  dsimp only
  cases Role.ofText (roleName ⟨e.environment, ⟨address, .registry r⟩⟩ e.given) with
  | error x => exact ⟨List.nil_prefix, told_nil address r⟩
  | ok role => exact Demonstration.run_told role e.value hr

/-- **Executions** hand over beginnings of the list, one after another. -/
theorem executions_told (address : String) (es : List Execution) (hr : r.poisoned = false) :
    let hs := handOversAll es ⟨address, .registry r⟩
    (∃ parts : List (List TaskDescriptor), (∀ part ∈ parts, part <+: descriptors) ∧
      hs.map (·.descriptor) = parts.flatten) ∧
      Told address r hs (performAll es ⟨address, .registry r⟩) := by
  induction es generalizing r with
  | nil => exact ⟨⟨[], nofun, rfl⟩, told_nil address r⟩
  | cons e rest ih =>
    obtain ⟨hpart, htold⟩ := e.told address hr
    have hr' := (r.poisoned_serve
      ((e.handOvers ⟨address, .registry r⟩).map (·.descriptor))).trans hr
    obtain ⟨⟨parts, hparts, hflatten⟩, htold'⟩ := ih hr'
    rw [← htold.connection] at hflatten htold'
    refine ⟨⟨_ :: parts, List.forall_mem_cons.2 ⟨hpart, hparts⟩, ?_⟩, htold.append htold'⟩
    rw [handOversAll, List.map_append, hflatten, List.flatten_cons]

/-- Beginnings of a list that are cut somewhere are beginnings of the list. -/
theorem exists_take_flatten {α : Type} {parts : List (List α)} {xs : List α}
    (hparts : ∀ part ∈ parts, part <+: xs) (k : Nat) :
    ∃ cut : List (List α), (∀ part ∈ cut, part <+: xs) ∧ parts.flatten.take k = cut.flatten := by
  induction parts generalizing k with
  | nil => exact ⟨[], nofun, by simp⟩
  | cons part rest ih =>
    obtain ⟨hpart, hrest⟩ := List.forall_mem_cons.1 hparts
    obtain ⟨cut, hcut, hflatten⟩ := ih hrest (k - part.length)
    refine ⟨part.take k :: cut, List.forall_mem_cons.2 ⟨?_, hcut⟩, ?_⟩
    · exact (List.take_prefix k part).trans hpart
    · rw [List.flatten_cons, List.take_append, hflatten, List.flatten_cons]

theorem distinct_descriptors : Registry.Distinct descriptors where
  valid := valid_descriptors
  nodup := by
    rw [signatures_descriptors]
    decide

/-- A registry that is empty at first, and told executions up to some hand-over. -/
theorem serves_take (address : String) (es : List Execution) (k : Nat) : ∃ m,
    ({} : Registry).Serves descriptors 0 (((handOversAll es ⟨address, .registry {}⟩).map
      (·.descriptor)).take k) m := by
  obtain ⟨⟨parts, hparts, hflatten⟩, -⟩ := executions_told address (r := {}) es rfl
  obtain ⟨cut, hcut, htake⟩ := exists_take_flatten hparts k
  rw [hflatten, htake]
  exact (Registry.stocks_empty descriptors).serves_flatten distinct_descriptors hcut

/-- **Running the program again never conflicts.** Processes run one after another, in whatever
roles and with whatever values, and end where they may; the registry is empty at first. It is told
what they hand over, and takes all of it. After any number of hand-overs, what was new to it is the
beginning of one list of signatures; it holds elements under these and no others; and an element
that it holds stays as it is. -/
theorem executions_never_conflict (address : String) (es : List Execution) :
    let handOvers := handOversAll es ⟨address, .registry {}⟩
    let sent := handOvers.map (·.descriptor)
    let upTo (k : Nat) := ({} : Registry).serve (sent.take k)
    performAll es ⟨address, .registry {}⟩ = ⟨address, .registry (({} : Registry).serve sent).2⟩ ∧
    (∀ h ∈ handOvers, h.answer = .ok ()) ∧
    ∀ k,
      (∀ x ∈ (upTo k).1, x.response.status = 200 ∨ x.response.status = 201) ∧
      Registry.created (upTo k).1 <+:
        ["catalog.increment", "catalog.solve", "catalog.scale", "catalog.scale.x_transform"] ∧
      (∀ signature, (upTo k).2.elements.contains signature ↔
        signature ∈ Registry.created (upTo k).1) ∧
      ∀ l, k ≤ l → ∀ signature e, (upTo k).2.elements.get? signature = some e →
        (upTo l).2.elements.get? signature = some e := by
  intro handOvers sent upTo
  obtain ⟨-, htold⟩ := executions_told address (r := {}) es rfl
  refine ⟨htold.connection, htold.accepted ?_, fun k => ?_⟩
  · obtain ⟨m, hserves⟩ := serves_take address es sent.length
    rw [List.take_length] at hserves
    intro x hx
    obtain hstatus | hstatus := hserves.statuses x hx
    · rw [hstatus]
      rfl
    · rw [hstatus]
      rfl
  · obtain ⟨m, hserves⟩ := serves_take address es k
    refine ⟨hserves.statuses, ?_, hserves.contains_iff, ?_⟩
    · rw [← signatures_descriptors]
      exact hserves.created_prefix
    · intro l hkl signature e he
      exact Registry.held_serve_take hkl he

end CommandLine
end TaskStack
