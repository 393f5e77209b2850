import TaskStack.Session.Substitution

/-!
# What a canonical signature stands for

A task is defined by its module and its function, and a derived task by these and a parameter. A
canonical signature joins the names with dots. Names may have dots too, and nothing marks them
there: a signature says which pieces stand between the dots, but not which of them make up a name,
nor whether the last one is a function or what transforms a parameter.

**Theorem (`signature_eq_iff`).** Two definitions have one signature if and only if their names have
the same pieces in the same order.

So functions and parameters without dots keep tasks apart from each other, and derived tasks too. A
task has the signature of a derived one if its module is the name of the task that this one belongs
to, and its function is called as the derived one (`signature_eq_iff_of_plain`).
-/

namespace TaskStack

/-- What has a canonical signature: a task, or the derived task of one of its parameters. -/
inductive Definition where
  | task (module function : String)
  | derived (module function param : String)
deriving DecidableEq, Repr

/-! ## Pieces of names -/

/-- What stands between the dots of a name. -/
def pieces (name : String) : List (List Char) := name.toList.splitOn '.'

theorem pieces_injective : Function.Injective pieces := by
  intro a b h
  have hjoin := congrArg ['.'].intercalate h
  simp only [pieces, List.intercalate_splitOn] at hjoin
  exact String.toList_inj.1 hjoin

theorem pieces_dot (a b : String) : pieces (a ++ "." ++ b) = pieces a ++ pieces b := by
  have hlist : (a ++ "." ++ b).toList = a.toList ++ '.' :: b.toList := by simp
  rw [pieces, hlist]
  exact List.splitOnP_append_cons _ _ rfl

theorem pieces_of_not_mem {name : String} (h : '.' ∉ name.toList) :
    pieces name = [name.toList] := by
  refine List.splitOnP_eq_singleton ?_
  intro c hc
  simp only [beq_eq_false_iff_ne]
  rintro rfl
  exact h hc

namespace Definition

/-- The names that make up a signature. -/
def names : Definition → List String
  | .task module function => [module, function]
  | .derived module function param => [module, function, param ++ "_transform"]

def signature : Definition → String
  | .task module name => TaskInfo.qualifiedName { module, name }
  | .derived module name param => Derived.signature { module, name } param

/-- The pieces of all names. -/
def path (a : Definition) : List (List Char) := a.names.flatMap pieces

theorem pieces_signature (a : Definition) : pieces a.signature = a.path := by
  cases a with
  | task module function =>
    rw [signature, TaskInfo.qualifiedName, pieces_dot]
    simp [path, names]
  | derived module function param =>
    rw [signature, Derived.signature, TaskInfo.qualifiedName, String.append_assoc, pieces_dot,
      pieces_dot]
    simp [path, names]

/-- **A signature stands for the pieces of the names.** -/
theorem signature_eq_iff (a b : Definition) : a.signature = b.signature ↔ a.path = b.path := by
  rw [← pieces_signature, ← pieces_signature, pieces_injective.eq_iff]

/-! ## Names without dots -/

/-- The function and the parameter have no dots; the module may. -/
def Plain : Definition → Prop
  | .task _ function => '.' ∉ function.toList
  | .derived _ function param => '.' ∉ function.toList ∧ '.' ∉ param.toList

/-- The first is a task whose module and function are called as the task and the parameter of the
second. -/
def Shadows : Definition → Definition → Prop
  | .task module' function', .derived module function param =>
    module' = module ++ "." ++ function ∧ function' = param ++ "_transform"
  | _, _ => False

theorem path_task {module function : String} (h : (task module function).Plain) :
    (task module function).path = pieces module ++ [function.toList] := by
  simp [path, names, pieces_of_not_mem h]

theorem path_derived {module function param : String} (h : (derived module function param).Plain) :
    (derived module function param).path =
      (pieces module ++ [function.toList]) ++ [(param ++ "_transform").toList] := by
  have hparam : '.' ∉ (param ++ "_transform").toList := by simp [h.2]
  simp [path, names, pieces_of_not_mem h.1, pieces_of_not_mem hparam]

theorem path_task_injective {m f m' f' : String} (h : (task m f).Plain) (h' : (task m' f').Plain)
    (heq : (task m f).path = (task m' f').path) : task m f = task m' f' := by
  rw [path_task h, path_task h'] at heq
  obtain ⟨hm, hf⟩ := List.append_inj' heq rfl
  obtain rfl := pieces_injective hm
  obtain rfl := String.toList_inj.1 (List.singleton_inj.1 hf)
  rfl

theorem path_derived_injective {m f p m' f' p' : String} (h : (derived m f p).Plain)
    (h' : (derived m' f' p').Plain) (heq : (derived m f p).path = (derived m' f' p').path) :
    derived m f p = derived m' f' p' := by
  rw [path_derived h, path_derived h'] at heq
  obtain ⟨htask, hp⟩ := List.append_inj' heq rfl
  have hpath : (task m f).path = (task m' f').path :=
    (path_task h.1).trans (htask.trans (path_task h'.1).symm)
  cases path_task_injective h.1 h'.1 hpath
  have hname := String.toList_inj.1 (List.singleton_inj.1 hp)
  obtain rfl := (String.append_left_inj _).1 hname
  rfl

/-- A plain task and a plain derived task have the same path only if one shadows the other. -/
theorem path_task_eq_path_derived_iff {module function module' function' param : String}
    (h : (task module' function').Plain) (h' : (derived module function param).Plain) :
    (task module' function').path = (derived module function param).path ↔
      (task module' function').Shadows (derived module function param) := by
  have hmodule : pieces module ++ [function.toList] = pieces (module ++ "." ++ function) := by
    rw [pieces_dot, pieces_of_not_mem h'.1]
  rw [path_task h, path_derived h', hmodule]
  constructor
  · intro heq
    obtain ⟨hm, hf⟩ := List.append_inj' heq rfl
    exact ⟨pieces_injective hm, String.toList_inj.1 (List.singleton_inj.1 hf)⟩
  · rintro ⟨rfl, rfl⟩
    rfl

/-- **Plain names leave one way to share a signature.** -/
theorem signature_eq_iff_of_plain {a b : Definition} (ha : a.Plain) (hb : b.Plain) :
    a.signature = b.signature ↔ a = b ∨ a.Shadows b ∨ b.Shadows a := by
  rw [signature_eq_iff]
  cases a with
  | task m f =>
    cases b with
    | task m' f' =>
      simp only [Shadows, or_false]
      exact ⟨path_task_injective ha hb, fun h => h ▸ rfl⟩
    | derived m' f' p' =>
      rw [path_task_eq_path_derived_iff ha hb]
      simp [Shadows]
  | derived m f p =>
    cases b with
    | task m' f' =>
      rw [eq_comm, path_task_eq_path_derived_iff hb ha]
      simp [Shadows]
    | derived m' f' p' =>
      simp only [Shadows, or_false]
      exact ⟨path_derived_injective ha hb, fun h => h ▸ rfl⟩

end Definition
end TaskStack
