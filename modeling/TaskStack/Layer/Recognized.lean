/-!
# Resource constraints an engine understands

The names of the resources a task can ask for. A name may also be given with capitals in place of
underscores; `normalize?` finds the name that is meant.
-/

namespace TaskStack.Resource

def recognized : List String :=
  ["computing_units", "processor_name", "processor_speed", "processor_architecture",
    "processor_type", "processor_property_name", "processor_property_value",
    "processor_internal_memory_size", "memory_size", "memory_type", "storage_size",
    "storage_type", "storage_bw", "operating_system_type", "operating_system_distribution",
    "operating_system_version", "app_software", "host_queues", "wall_clock_limit", "is_local"]

def isRecognized (key : String) : Bool := recognized.contains key

/-- Writes every ASCII capital as an underscore and the small letter. -/
def snakeCase (key : String) : String :=
  String.ofList (key.toList.flatMap fun c => if c.isUpper then ['_', c.toLower] else [c])

/-- The recognized name that a key stands for. -/
def normalize? (key : String) : Option String :=
  recognized.find? (· = snakeCase key)

example : normalize? "wallClockLimit" = some "wall_clock_limit" := by decide +kernel
example : normalize? "gpu" = none := by decide +kernel

end TaskStack.Resource
