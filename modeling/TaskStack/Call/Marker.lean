/-!
# Markers

Named arguments that begin with two underscores are marks for the engine. Layers put them on while
a call passes through them; a task body never sees them.
-/

namespace TaskStack.Marker

def isMarker (name : String) : Bool :=
  match name.toList with
  | '_' :: '_' :: _ => true
  | _ => false

/-- The name of a marker, with the underscores added if they are missing. -/
def named (name : String) : String := if isMarker name then name else "__" ++ name

/-- Tells the engine whether to put marks in front of string arguments. -/
def prependStrings : String := "__prepend_strings"

/-- Tells the engine how many nodes a parallel run asks for. -/
def computingNodes : String := "__computing_nodes"

@[simp] theorem isMarker_named (name : String) : isMarker (named name) = true := by
  unfold named
  split
  · assumption
  · simp [isMarker]

end TaskStack.Marker
