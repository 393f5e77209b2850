import TaskStack.Catalogue
import TaskStack.Proofs.Session.Orderly
import Mathlib.Data.List.Infix

/-!
# The tasks of the catalogue

The tasks of the catalogue are accepted declarations of built-in layers, and their bodies are
functions. Their names are told apart from the beginning: none of them begins another. A descriptor
that one of them hands over has a signature that begins with its name, so the three tasks and all
their derived tasks get on with each other (`compatible`).
-/

namespace TaskStack

/-- The signature of what a declaration hands over begins with its name. -/
theorem Declaration.Makes.begins {d : Declaration} {f : Bound → Except Abort Value}
    (hd : d.Computes f) {x : TaskDescriptor} (h : d.Makes x) :
    d.info.qualifiedName.toList <+: x.canonicalSignature.toList := by
  cases h with
  | own hr =>
    rw [canonicalSignature_of_describe _ hd.builtIn (countP_of_build hd.accepted) hd.constraint
      hd.mpi hr]
  | derived param => simp [Derived.descriptor, Derived.signature, List.append_assoc]

/-- What one declaration hands over is told apart by its signatures. -/
theorem Declaration.Makes.eq_of_signature {d : Declaration} {f : Bound → Except Abort Value}
    (hd : d.Computes f) {x x' : TaskDescriptor} (h : d.Makes x) (h' : d.Makes x')
    (hsignature : x.canonicalSignature = x'.canonicalSignature) : x = x' := by
  have hown : ∀ {r : Registered}, describe d.info d.layers = .ok r →
      r.descriptor.canonicalSignature = d.info.qualifiedName :=
    canonicalSignature_of_describe _ hd.builtIn (countP_of_build hd.accepted) hd.constraint hd.mpi
  cases h with
  | own hr =>
    cases h' with
    | own hr' =>
      cases hr.symm.trans hr'
      rfl
    | derived param =>
      exact absurd (hsignature.symm.trans (hown hr)) (Derived.signature_ne_qualifiedName _ _)
  | derived param =>
    cases h' with
    | own hr' =>
      exact absurd (hsignature.trans (hown hr')) (Derived.signature_ne_qualifiedName _ _)
    | derived param' => rw [Derived.signature_injective _ hsignature]

namespace Catalogue

theorem computes_increment : increment.Computes fun b => Value.int <$> incrementBody b where
  accepted := rfl
  builtIn := by simp [increment, Layer.isBuiltIn]
  constraint := by decide
  mpi := by decide
  unmarked := by simp [increment, info, Schema.Unmarked, Marker.isMarker]
  body _ := rfl

theorem computes_solve : solve.Computes fun b => Value.int <$> solveBody b where
  accepted := rfl
  builtIn := by simp [solve, Layer.isBuiltIn]
  constraint := by decide
  mpi := by decide
  unmarked := by simp [solve, info, Schema.Unmarked, Marker.isMarker]
  body _ := rfl

theorem computes_scale : scale.Computes fun b => Value.int <$> scaleBody b where
  accepted := rfl
  builtIn := by simp [scale, Layer.isBuiltIn]
  constraint := by decide
  mpi := by decide
  unmarked := by simp [scale, info, Schema.Unmarked, Marker.isMarker]
  body _ := rfl

theorem mem_tasks_iff {d : Declaration} :
    d ∈ tasks ↔ d = increment ∨ d = solve ∨ d = scale := by
  simp [tasks]

theorem exists_computes {d : Declaration} (h : d ∈ tasks) : ∃ f, d.Computes f := by
  obtain rfl | rfl | rfl := mem_tasks_iff.1 h
  · exact ⟨_, computes_increment⟩
  · exact ⟨_, computes_solve⟩
  · exact ⟨_, computes_scale⟩

/-- The resources of `increment` come out of the options that ask for them. -/
theorem made_incrementConstraint : (Layer.constraint incrementConstraint).Made :=
  @Layer.Made.constraint (Dict.ofList [("computingUnits", .int 2), ("memory_size", .int 1)])
    incrementConstraint rfl

theorem made_layers {d : Declaration} (h : d ∈ tasks) : ∀ l ∈ d.layers, l.Made := by
  obtain rfl | rfl | rfl := mem_tasks_iff.1 h
  · exact List.forall_mem_cons.2 ⟨made_incrementConstraint, List.forall_mem_singleton.2 (.task {})⟩
  · exact List.forall_mem_cons.2 ⟨.mpi solveRun, List.forall_mem_singleton.2 (.task {})⟩
  · exact List.forall_mem_cons.2 ⟨.transformation [squareX], List.forall_mem_singleton.2 (.task {})⟩

/-- No name of a task begins another. -/
theorem eq_of_begins {d d' : Declaration} (h : d ∈ tasks) (h' : d' ∈ tasks)
    (hbegins : d.info.qualifiedName.toList <+: d'.info.qualifiedName.toList) : d = d' := by
  obtain rfl | rfl | rfl := mem_tasks_iff.1 h <;> obtain rfl | rfl | rfl := mem_tasks_iff.1 h' <;>
    first
    | rfl
    | exact absurd hbegins (by decide)

/-- **The tasks of the catalogue get on with each other.** -/
theorem compatible : Declaration.Compatible (· ∈ tasks) where
  valid := by
    intro d x hd hx
    obtain ⟨f, hf⟩ := exists_computes hd
    exact TaskDescriptor.validate_eq_ok_iff.2
      (hx.keepsContract (made_layers hd) (Declaration.countP_of_build hf.accepted))
  toldApart := by
    intro d d' x x' hd hd' hx hx' hsignature
    obtain ⟨f, hf⟩ := exists_computes hd
    obtain ⟨f', hf'⟩ := exists_computes hd'
    have hsame : d = d' := by
      obtain hbegins | hbegins := List.prefix_or_prefix_of_prefix (hx.begins hf)
        (hsignature ▸ hx'.begins hf')
      · exact eq_of_begins hd hd' hbegins
      · exact (eq_of_begins hd' hd hbegins).symm
    subst hsame
    exact hx.eq_of_signature hf hx' hsignature

end Catalogue
end TaskStack
