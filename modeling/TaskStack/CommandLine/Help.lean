/-!
# Help

What the command line says about itself.
-/

namespace TaskStack.CommandLine.Help

def program : String := "submitter"

def aboutRun : String := "Ejecuta el catálogo de demo (dos rondas por tarea)"
def aboutList : String := "Lista los descriptores registrados"
def aboutShow : String := "Muestra un descriptor registrado"
def aboutHelp : String := "Print this message or the help of the given subcommand(s)"

/-- A text about one command: what it is for, how it is written, and its sections. -/
def page (about usage : String) (sections : List (String × List String)) : String :=
  about ++ "\n\nUsage: " ++ program ++ " " ++ usage ++ "\n" ++
    String.join (sections.map fun s =>
      "\n" ++ s.1 ++ ":\n" ++ String.join (s.2.map fun line => "  " ++ line ++ "\n"))

def options : String × List String := ("Options", ["-h, --help  Print help"])

def overview : String :=
  page "Declara tareas, las ejecuta y entrega sus descriptores al registry" "<COMMAND>"
    [("Commands",
        ["run   " ++ aboutRun, "list  " ++ aboutList, "show  " ++ aboutShow,
          "help  " ++ aboutHelp]),
      options]

def run : String :=
  page aboutRun "run [OPTIONS]"
    [("Options",
        ["    --role <ROL>     unset | submitter | worker (default: TASK_ROLE o submitter)",
          "    --value <VALUE>  [default: 4]",
          "-h, --help           Print help"])]

def list : String := page aboutList "list" [options]

def element : String :=
  page aboutShow "show <SIGNATURE>" [("Arguments", ["<SIGNATURE>  "]), options]

def help : String :=
  page aboutHelp "help [COMMAND]..."
    [("Arguments", ["[COMMAND]...  Print help for the subcommand(s)"])]

end TaskStack.CommandLine.Help
