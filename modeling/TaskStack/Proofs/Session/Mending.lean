import TaskStack.Session.Command

/-!
# What is mended

What if a body, a transformation or an engine that is asked to run something had failed where it
panicked? To mend a session is to make such panics into failures with a text of their own, in all
that can still run: in the bodies and the transformations, in the layers from outside, and in what
engines will answer to submissions. The panic of a called task also ends the caller, so a mended
body gives up when a call in it gives up. What engines answer to descriptors stays as it is.

A layer from outside cannot look into the transformations that a call has brought along, and so it
does not see whether they are mended.

* `Session.mended`, `Command.mended`: mended sessions and commands.
* `Stands`: an answer and the one that stands for it.
* `Fleet.register_mended`, `Fleet.submit_mended`: mended engines answer the same, mended.
* `CustomLayer.Blind.beforeCall_mended`: a mended layer from outside does the same.
-/

namespace TaskStack

/-- The panics that are mended, by their texts, and the failure that they become. -/
structure Mending where
  covers : String → Bool
  detail : String

/-! ## What is mended -/

section Mended

variable (m : Mending)

def Abort.mended : Abort → Abort
  | .panic text => if m.covers text then .failure m.detail else .panic text
  | .failure detail => .failure detail

def Fault.mended : Fault → Fault
  | .panic text => if m.covers text then .error (.execution m.detail) else .panic text
  | fault => fault

def Transform.mended (u : Transform) : Transform :=
  { u with function := fun v options => (u.function v options).mapError (Abort.mended m) }

def Args.mended (a : Args) : Args := { a with transforms := a.transforms.map (Transform.mended m) }

/-- An answer is the failure that panics become. -/
def Mending.isFailure : Except TaskError Value → Bool
  | .error (.execution detail) => detail = m.detail
  | _ => false

/-- A body gives up when a call in it has given up. -/
def Program.mended : Program → Program
  | .done r => .done (r.mapError (Abort.mended m))
  | .call task args next => .call task (args.mended m) fun answer =>
    if m.isFailure answer then ofAbort (.failure m.detail) else (next answer).mended

/-- The transformations that a layer from outside puts in the place of those that a call has brought
along. It is seen to do so if it leaves the same ones whatever the call has brought. -/
def CustomLayer.own? (c : CustomLayer) (info : TaskInfo) (role : Role) (args : Args) :
    Option (List Transform) :=
  let left (param : String) : List Transform :=
    (c.beforeCall info role
      { args with transforms := args.transforms.map fun u => { u with param } }).2.transforms
  if (left "x").map (·.param) = (left "y").map (·.param) then some (left "x") else none

def CustomLayer.mended (c : CustomLayer) : CustomLayer :=
  { c with beforeCall := fun info role args =>
      let (answer, left) := c.beforeCall info role args
      (answer.mapError (Fault.mended m),
        match c.own? info role args with
        | some own => { left with transforms := own.map (Transform.mended m) }
        | none => left) }

def Layer.mended : Layer → Layer
  | .transformation specs => .transformation (specs.map (Transform.mended m))
  | .custom c => .custom (c.mended m)
  | layer => layer

def Declaration.mended (d : Declaration) : Declaration :=
  ⟨d.info, d.layers.map (Layer.mended m), fun b => (d.body b).mended m⟩

def Task.mended (t : Task) : Task :=
  ⟨t.declaration.mended m, t.registration, t.derived, by
    simp [Declaration.mended, t.derived_length]⟩

def SubmitReply.mended : SubmitReply → SubmitReply
  | .panic text =>
    if m.covers text then .answer fun _ => .error (.execution m.detail) else .panic text
  | reply => reply

def Engine.mended (e : Engine) : Engine :=
  { e with submitScript := e.submitScript.map (SubmitReply.mended m) }

def Admission.mended : Admission → Admission
  | .run => .run
  | .settled result => .settled (result.mapError (Fault.mended m))

def Event.mended : Event → Event
  | .submit engine o d schema args => .submit engine o d schema (args.mended m)
  | e => e

def Fleet.mended (f : Fleet) : Fleet :=
  ⟨f.engines.map (Engine.mended m), f.history.map (Event.mended m)⟩

def Session.mended (s : Session) : Session :=
  { s with fleet := s.fleet.mended m, tasks := s.tasks.map (Task.mended m) }

def Command.mended : Command → Command
  | .addEngine e => .addEngine (e.mended m)
  | .declare name d => .declare name (d.mended m)
  | .call task args depth => .call task (args.mended m) depth
  | c => c

end Mended

/-- A layer from outside cannot look into the transformations that a call has brought along. It
counts them at most, and leaves them or puts its own in their place. -/
def CustomLayer.Blind (c : CustomLayer) : Prop :=
  ∀ (info : TaskInfo) (role : Role) (args : Args),
    ∃ (answer : Except Fault Unit) (changed : Args) (own : Option (List Transform)),
      ∀ transforms : List Transform, transforms.length = args.transforms.length →
        c.beforeCall info role { args with transforms } =
          (answer, { changed with transforms := own.getD transforms })

/-- What is seen of a layer that puts its own transformations in the place of others. -/
theorem CustomLayer.own?_of_beforeCall {c : CustomLayer} {info : TaskInfo} {role : Role}
    {args changed : Args} {answer : Except Fault Unit} {own : Option (List Transform)}
    (h : ∀ transforms : List Transform, transforms.length = args.transforms.length →
      c.beforeCall info role { args with transforms } =
        (answer, { changed with transforms := own.getD transforms })) :
    c.own? info role args = own ∨ own = none ∧ args.transforms = [] ∧
      c.own? info role args = some [] := by
  have hprobe (param : String) :=
    h (args.transforms.map fun u => { u with param }) (List.length_map _)
  simp only [own?, hprobe]
  cases own with
  | some own => simp
  | none => cases args.transforms <;> simp

theorem CustomLayer.Blind.beforeCall_mended {c : CustomLayer} (hc : c.Blind) (m : Mending)
    (info : TaskInfo) (role : Role) (args : Args) :
    (c.mended m).beforeCall info role (args.mended m) =
      ((c.beforeCall info role args).1.mapError (Fault.mended m),
        (c.beforeCall info role args).2.mended m) := by
  obtain ⟨answer, changed, own, hown⟩ := hc info role args
  have hlength : (args.mended m).transforms.length = args.transforms.length :=
    List.length_map _
  have hleft : c.beforeCall info role args =
    (answer, { changed with transforms := own.getD args.transforms }) := hown _ rfl
  have hmended : c.beforeCall info role (args.mended m) =
    (answer, { changed with transforms := own.getD (args.mended m).transforms }) :=
    hown _ hlength
  have hseen : c.own? info role (args.mended m) = own ∨ _ := own?_of_beforeCall fun transforms h =>
    hown transforms (h.trans hlength)
  simp only [CustomLayer.mended, hmended, hleft]
  obtain hown? | ⟨rfl, hnil, hown?⟩ := hseen
  · rw [hown?]
    cases own <;> rfl
  · rw [hown?]
    have hnil : args.transforms = [] := List.map_eq_nil_iff.1 hnil
    simp [Args.mended, hnil]

/-! ## Answers that stand for one another -/

/-- The panic of an engine that was handed a descriptor. -/
def Event.panic? : Event → Option String
  | .register _ _ _ (.error (.panic text)) => some text
  | _ => none

/-- The panic of a hand-over, if that is the latest event and not one of the first few. -/
def Fleet.panicSince? (n : Nat) (f : Fleet) : Option String :=
  if n < f.history.length then f.history.head?.bind Event.panic? else none

theorem Fleet.panicSince?_cons (engines : List Engine) (e : Event) {earlier : List Event} {n : Nat}
    (hn : n ≤ earlier.length) : panicSince? n ⟨engines, e :: earlier⟩ = e.panic? :=
  if_pos (Nat.lt_succ_of_le hn)

theorem Fleet.panicSince?_self (f : Fleet) : f.panicSince? f.history.length = none :=
  if_neg (Nat.lt_irrefl _)

/-- A panic after later events is one of those. -/
theorem Fleet.panicSince?_of_suffix {f f' : Fleet} {n : Nat} (hn : n ≤ f.history.length)
    (hnone : f.panicSince? n = none) (hlater : f.history <:+ f'.history) :
    f'.panicSince? n = f'.panicSince? f.history.length := by
  obtain ⟨engines, history⟩ := f
  obtain ⟨engines', history'⟩ := f'
  obtain ⟨later, rfl⟩ := hlater
  cases later with
  | nil => exact hnone.trans (panicSince?_self ⟨engines, history⟩).symm
  | cons e later =>
    have hlength : history.length ≤ (later ++ history).length := by simp
    exact (panicSince?_cons engines' e (Nat.le_trans hn hlength)).trans
      (panicSince?_cons engines' e hlength).symm

/-- A value stands for the one that it is made into, and a fault for the same one mended. Only a
hand-over that has just panicked is left alone. -/
inductive Stands {α : Type} (m : Mending) (g : α → α) :
    Option String → Except Fault α → Except Fault α → Prop
  | ok (a : α) : Stands m g none (.ok a) (.ok (g a))
  | error (fault : Fault) : Stands m g none (.error fault) (.error (fault.mended m))
  | handOver (text : String) :
    Stands m g (some text) (.error (.panic text)) (.error (.panic text))

theorem Abort.fault_mended (m : Mending) (a : Abort) : (a.mended m).fault = a.fault.mended m := by
  cases a with
  | failure detail => rfl
  | panic text =>
    simp only [mended, fault, Fault.mended]
    cases m.covers text <;> rfl

theorem stands_mapError {α : Type} (m : Mending) (r : Except Fault α) :
    Stands m id none r (r.mapError (Fault.mended m)) := by
  cases r with
  | ok a => exact .ok a
  | error fault => exact .error fault

theorem stands_abort {α : Type} (m : Mending) (r : Except Abort α) :
    Stands m id none (r.mapError Abort.fault)
      ((r.mapError (Abort.mended m)).mapError Abort.fault) := by
  cases r with
  | ok a => exact .ok a
  | error a =>
    change Stands m id none (.error a.fault) (.error (a.mended m).fault)
    rw [Abort.fault_mended]
    exact .error a.fault

/-! ## Engines -/

namespace Engine

variable (m : Mending) (e : Engine)

theorem registerByReply_mended (d : TaskDescriptor) (reply : RegisterReply) :
    (e.mended m).registerByReply d reply =
      ((e.registerByReply d reply).1, (e.registerByReply d reply).2.mended m) := by
  cases reply with
  | answer result => rfl
  | panic text => rfl
  | byItself =>
    have hkeep : (e.mended m).keep d = ((e.keep d).1, (e.keep d).2.mended m) := by
      obtain ⟨_, _, _, _, connection⟩ := e
      cases connection <;> rfl
    simp only [registerByReply, hkeep]

theorem register_mended (d : TaskDescriptor) :
    (e.mended m).register d = ((e.register d).1, (e.register d).2.mended m) := by
  have hscript : (e.mended m).registerScript = e.registerScript := rfl
  rw [register, register, hscript]
  cases e.registerScript with
  | nil => exact registerByReply_mended m e d .byItself
  | cons reply rest => exact registerByReply_mended m { e with registerScript := rest } d reply

theorem submitByReply_mended (signature : String) (args : Args) (reply : SubmitReply) :
    (e.mended m).submitByReply signature (args.mended m) (reply.mended m) =
      ((e.submitByReply signature args reply).1.mended m,
        (e.submitByReply signature args reply).2.mended m) := by
  cases reply with
  | byItself => rfl
  | answer result =>
    simp only [SubmitReply.mended, submitByReply, Admission.mended]
    cases result signature <;> rfl
  | panic text =>
    have hadmission : (Admission.settled (.error (.panic text))).mended m =
        .settled (.error (Fault.mended m (.panic text))) := rfl
    simp only [SubmitReply.mended, submitByReply, hadmission, Fault.mended]
    cases m.covers text <;> rfl

theorem submit_mended (signature : String) (args : Args) :
    (e.mended m).submit signature (args.mended m) =
      ((e.submit signature args).1.mended m, (e.submit signature args).2.mended m) := by
  have hscript : (e.mended m).submitScript = e.submitScript.map (SubmitReply.mended m) := rfl
  rw [submit, submit, hscript]
  cases e.submitScript with
  | nil => exact submitByReply_mended m e signature args .byItself
  | cons reply rest =>
    exact submitByReply_mended m { e with submitScript := rest } signature args reply

end Engine

namespace Fleet

variable (m : Mending) (f : Fleet) (engine : EngineId) (o : Origin) (d : TaskDescriptor)

theorem setEngine_mended (e : Engine) :
    (f.mended m).setEngine engine (e.mended m) = (f.setEngine engine e).mended m := by
  simp [setEngine, mended, List.map_set]

theorem register_mended :
    (f.mended m).register engine o d =
      ((f.register engine o d).1, (f.register engine o d).2.mended m) := by
  have hengine : (f.mended m).engines[engine]? = f.engines[engine]?.map (Engine.mended m) :=
    List.getElem?_map
  rw [register, register, hengine]
  cases f.engines[engine]? with
  | none => rfl
  | some e =>
    simp only [Option.map_some, Engine.register_mended, setEngine_mended]
    rfl

theorem submit_mended (schema : Schema) (args : Args) :
    (f.mended m).submit engine o d schema (args.mended m) =
      ((f.submit engine o d schema args).1.mended m,
        (f.submit engine o d schema args).2.mended m) := by
  have hengine : (f.mended m).engines[engine]? = f.engines[engine]?.map (Engine.mended m) :=
    List.getElem?_map
  rw [submit, submit, hengine]
  cases f.engines[engine]? with
  | none => rfl
  | some e =>
    simp only [Option.map_some, Engine.submit_mended, setEngine_mended]
    rfl

end Fleet

/-! ## Arguments and descriptions -/

section

variable (m : Mending)

theorem Args.replace_mended (a : Args) (site : Site) (name : String) (v : Value) :
    (a.mended m).replace site name v = (a.replace site name v).mended m := by
  cases site with
  | keyword => rfl
  | default => rfl
  | positional index =>
    have hlength : (a.mended m).positional = a.positional := rfl
    rw [replace, replace, hlength]
    split <;> rfl

theorem Layer.mark_mended (l : Layer) (a : Args) :
    (l.mended m).mark (a.mended m) = (l.mark a).mended m := by
  have hmarked (prepend : Option Bool) (markers : List (String × Value)) :
      (a.mended m).marked prepend markers = (a.marked prepend markers).mended m := by
    have hfold : ∀ a : Args, markers.foldl (fun a x => a.mark x.1 x.2) (a.mended m) =
        (markers.foldl (fun a x => a.mark x.1 x.2) a).mended m := by
      induction markers with
      | nil => exact fun _ => rfl
      | cons x rest ih => exact fun a => ih (a.mark x.1 x.2)
    cases prepend with
    | none => exact hfold a
    | some b => exact hfold (a.acquire (some b))
  cases l <;> exact hmarked ..

theorem describe_mended (info : TaskInfo) (layers : List Layer) :
    Declaration.describe info (layers.map (Layer.mended m)) =
      Declaration.describe info layers := by
  have hconfigure (slot : DescriptorSlot) :
      Declaration.configureAll info (layers.map (Layer.mended m)) slot =
        Declaration.configureAll info layers slot := by
    induction layers generalizing slot with
    | nil => rfl
    | cons l rest ih =>
      have hl : (l.mended m).configure info slot = l.configure info slot := by cases l <;> rfl
      simp only [List.map_cons, Declaration.configureAll, hl, ih]
  have hcomplete (b : DescriptorBuilder) :
      Declaration.completeAll info (layers.map (Layer.mended m)) b =
        Declaration.completeAll info layers b := by
    clear hconfigure
    induction layers generalizing b with
    | nil => rfl
    | cons l rest ih =>
      have hl : (l.mended m).complete info b = l.complete info b := by cases l <;> rfl
      simp only [List.map_cons, Declaration.completeAll, hl, ih]
  simp only [Declaration.describe, hconfigure, hcomplete]

theorem Derived.body_mended (u : Transform) (b : Bound) :
    Derived.body (u.mended m) b = (Derived.body u b).mapError (Abort.mended m) := by
  unfold Derived.body Bound.require
  cases b.get? "data" <;> rfl

end

end TaskStack
