import Monitor68.Command.Grammar

/-!
# Usage

What the program says when it is asked for help or for its version, or
when its words make no sense.
-/

namespace Monitor68.Command

def programName : String := "monitor68"

/-- How the program is used. -/
def usage : List String :=
  ["Usage: " ++ programName ++ " [-c FILE] COMMAND",
   "",
   "Commands:",
   "  load IMAGE                          load an image and report its entry point",
   "  listing FILE                        print the lines and symbols of a listing",
   "  watch IMAGE ADDRESS[:ENCODING]...   show values in memory",
   "  dump IMAGE ADDRESS [ROWS]           dump memory around an address",
   "  step IMAGE [-n COUNT] [-l LISTING]  execute single steps",
   "  screen IMAGE [-o OUT] [--frame-swap]  write one frame as a picture",
   "  help [COMMAND]                      print this text",
   "",
   "Options:",
   "  -c, --config FILE  read settings from a file",
   "  -h, --help         print this text",
   "  -V, --version      print the name of the program"]

/-- What is said instead of performing a command. -/
def Halt.lines : Halt → List String
  | .misuse => usage
  | .help => usage
  | .version => [programName]

end Monitor68.Command
