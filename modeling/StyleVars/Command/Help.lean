import StyleVars.Text.Basic

/-!
# Help on the command line

What is printed when help is asked for: how the program or one of its commands is called, and what
its arguments and options mean. Lines have at most 78 characters; the explanations stand in a column
of their own.
-/

namespace StyleVars.Command

/-- What help is asked about: the program as a whole, or one of its commands. -/
inductive Topic
  | program
  | extract
  | serve
  deriving DecidableEq

namespace Topic

/-- How the program or the command is called. -/
def usage : Topic → List String
  | program => ["usage: sassvars [-h] [-v] \x7bextract,serve\x7d ..."]
  | extract =>
    ["usage: sassvars extract [-h] [-v] [-I INCLUDE_PATH] [-p PLUGIN]",
     "                        [--config CONFIG] [-o OUTPUT] [--log-file LOG_FILE]",
     "                        [--css]",
     "                        entry"]
  | serve => ["usage: sassvars serve [-h] [-v] [--host HOST] [--port PORT]"]

/-- What the program is for, and the meaning of arguments and options. -/
def explanation : Topic → List String
  | program =>
    ["Extract resolved Sass variable values from a stylesheet tree.",
     "",
     "positional arguments:",
     "  \x7bextract,serve\x7d",
     "    extract        Compile an entry stylesheet and print its variables as",
     "                   JSON.",
     "    serve          Run the HTTP extraction service.",
     "",
     "options:",
     "  -h, --help       show this help message and exit",
     "  -v, --verbose    Increase log verbosity for troubleshooting."]
  | extract =>
    ["positional arguments:",
     "  entry                 Entry stylesheet to compile.",
     "",
     "options:",
     "  -h, --help            show this help message and exit",
     "  -v, --verbose         Increase log verbosity for troubleshooting.",
     "  -I INCLUDE_PATH, --include-path INCLUDE_PATH",
     "                        Additional import search path (repeatable).",
     "  -p PLUGIN, --plugin PLUGIN",
     "                        Plugin to run on the result, e.g. serialize, compact,",
     "                        minimal (repeatable).",
     "  --config CONFIG       Path to .sassvars.yml (defaults to the entry's",
     "                        directory).",
     "  -o OUTPUT, --output OUTPUT",
     "                        Write JSON to this file instead of stdout.",
     "  --log-file LOG_FILE   Also write DEBUG logs for every extraction stage to",
     "                        this file.",
     "  --css                 Include the compiled CSS alongside the variables."]
  | serve =>
    ["options:",
     "  -h, --help     show this help message and exit",
     "  -v, --verbose  Increase log verbosity for troubleshooting.",
     "  --host HOST",
     "  --port PORT"]

/-- The lines of a text, each with a line break after it. -/
def linesText (lines : List String) : Text := lines.flatMap fun line => line.toText ++ [.char '\n']

/-- How the program or the command is called, as it is printed. -/
def usageText (topic : Topic) : Text := linesText topic.usage

/-- The help on a topic as it is printed. -/
def text (topic : Topic) : Text := linesText (topic.usage ++ "" :: topic.explanation)

end Topic
end StyleVars.Command
