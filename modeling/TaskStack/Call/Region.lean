import TaskStack.Call.Args

/-!
# Marker regions

While a call passes through a layer its arguments carry the marks of that layer. A region saves the
arguments when it is entered and puts them back when it is left, however it is left. `within` is a
region around a computation; `Regions` is a run of steps over nested regions.
-/

namespace TaskStack

namespace Args

/-- Enters a region: notes what the layer says about string arguments, if it says anything. -/
def acquire (a : Args) (prepend : Option Bool) : Args :=
  match prepend with
  | none => a
  | some b => a.setNamed Marker.prependStrings (.bool b)

/-- Puts a marker on. -/
def mark (a : Args) (name : String) (v : Value) : Args := a.setNamed (Marker.named name) v

/-- The arguments inside the region of a layer. -/
def marked (a : Args) (prepend : Option Bool) (markers : List (String × Value)) : Args :=
  markers.foldl (fun a m => a.mark m.1 m.2) (a.acquire prepend)

/-- Runs a computation inside a region and restores the arguments after it. -/
def within {α : Type} (a : Args) (prepend : Option Bool) (markers : List (String × Value))
    (inner : Args → α × Args) : α × Args :=
  ((inner (a.marked prepend markers)).1, a)

end Args

/-- Nested regions: the arguments as they are in the innermost one, and what each region, from the
innermost on, puts back when it ends. -/
structure Regions where
  current : Args
  saved : List Args

inductive RegionStep where
  | acquire (prepend : Option Bool)
  | mark (name : String) (value : Value)
  | insert (name : String) (value : Value)
  | remove (name : String)
  | replace (site : Site) (name : String) (value : Value)
  | release
  | panic (text : String)

namespace Regions

def enter (a : Args) (prepend : Option Bool) : Regions := ⟨a.acquire prepend, [a]⟩

/-- Ends the innermost region. -/
def release (r : Regions) : Regions :=
  match r.saved with
  | [] => r
  | a :: rest => ⟨a, rest⟩

/-- A step inside the innermost region; a panic leaves the arguments as they are. -/
def step (r : Regions) : RegionStep → Regions
  | .acquire prepend => ⟨r.current.acquire prepend, r.current :: r.saved⟩
  | .mark name v => { r with current := r.current.mark name v }
  | .insert name v => { r with current := r.current.setNamed name v }
  | .remove name => { r with current := { r.current with named := r.current.named.erase name } }
  | .replace site name v => { r with current := r.current.replace site name v }
  | .release => r.release
  | .panic _ => r

/-- Ends all regions, the innermost first, and lists the arguments of each region that a nested one
gave back. -/
def unwind (r : Regions) : List Args × Args :=
  match r.saved with
  | [] => ([], r.current)
  | a :: rest => go a rest
where
  go (current : Args) : List Args → List Args × Args
    | [] => ([], current)
    | a :: rest => let (seen, last) := go a rest; (current :: seen, last)

/-- What a run over nested regions shows: the arguments after each step, the panic that ended it if
one did, and the arguments afterwards. -/
structure Trace where
  seen : List Args
  panic : Option String
  after : Args

/-- Runs the steps. It ends with the outermost region, with a panic, or with the last step. -/
def run (r : Regions) : List RegionStep → Trace
  | [] => let (seen, after) := r.unwind; ⟨seen, none, after⟩
  | .panic text :: _ => ⟨[], some text, r.unwind.2⟩
  | s :: rest =>
    let next := r.step s
    if next.saved.isEmpty then ⟨[], none, next.current⟩
    else
      let trace := next.run rest
      { trace with seen := next.current :: trace.seen }

end Regions

/-- Runs steps inside a region around the given arguments. -/
def Args.runRegion (a : Args) (prepend : Option Bool) (steps : List RegionStep) : Regions.Trace :=
  let r := Regions.enter a prepend
  let trace := r.run steps
  { trace with seen := r.current :: trace.seen }

end TaskStack
