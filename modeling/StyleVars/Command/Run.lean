import StyleVars.Command.Arguments
import StyleVars.Data.Json
import StyleVars.LogSetup
import StyleVars.Settings

/-!
# The command line

`extract` compiles a style sheet and prints its variables, or writes them to a file; `serve` runs
the service. Failures that a user can mend are told in one line, and every other failure is passed
on.
-/

namespace StyleVars.Command

variable [ColorNames]

/-- What running a command line does: the exit status if it ends early, a failure that is passed on,
what it prints, the files and the log files that it writes, and where it serves. -/
structure Effect where
  exit : Option Nat
  raised : Option Failure
  stdout : Text
  stderr : Text
  written : List (Text × Text)
  logs : List (Text × Text)
  served : Option (Option Text × Option Int)

/-- Doing nothing. -/
def Effect.nothing : Effect := ⟨none, none, [], [], [], [], none⟩

/-- The line by which a user is told of a failure, when it is one that the user can mend. -/
def toldAs (e : Failure) : Option Text :=
  match e.family with
  | .extraction | .compilation | .settings | .value =>
    some ("sassvars extract failed: ".toText ++ e.message ++ [.char '\n'])
  | .missingFile => some (e.message ++ [.char '\n'])
  | .other => none

/-- The texts of paths that were given. The first one that is of no use is told of. -/
def givenPaths (place : Place) (paths : List (Option Text)) : Except Failure (List Text) :=
  paths.mapM fun
    | some path => (place.normalText path).map fun _ => path
    | none => .error .pathWithoutText

/-- The plugin that was given by its name; without one, it is described by an empty list. -/
def givenPlugin : Option Text → PluginSpec
  | some name => .name name
  | none => .other (.list [])

/-- Extracts the variables of the entry, under the settings of its project and the given ones. -/
def extractPayload (site : Site) (registry : Registry) (compiler : Compiler) (entry : Text)
    (given : List Setting) : Recorded Data := do
  let entry ← site.place.expandHome (.ofText entry)
  if !site.disk.isFile site.place entry then throw (.missingEntry entry.toText)
  let place := ((lastText given .config).map Path.ofText).getD entry.parent
  let settings ← Settings.load site place
  let job := settings.job (some entry.toText) none
  let paths ← givenPaths site.place (job.includePaths.map some ++ allGiven given .includePath)
  let job := { job with includePaths := paths }
  let specs := settings.plugins.map PluginSpec.ofData ++ (allGiven given .plugin).map givenPlugin
  let (result, vars) ← render site registry compiler .none job specs
  if (lastGiven given .css).isSome then
    return .ofFields [("css".toText, .text result.css), ("vars".toText, vars)]
  else return vars

/-- Runs the command that extracts variables, with the given log file. -/
def extractWith (site : Site) (registry : Registry) (compiler : Compiler) (time entry : Text)
    (given : List Setting) (verbose : Bool) (logFile : Option Text) : Effect :=
  let absolute (t : Text) : Text := (site.place.absolute (.ofText t)).toText
  let setup : LogSetup := ⟨verbose, logFile⟩
  let output := lastText given .output
  let result : Recorded Text := do
    let payload ← extractPayload site registry compiler entry given
    if let some file := output then
      Recorded.log "cli".toText .info ("Variables written to ".toText ++ file)
    return payload.json ++ [.char '\n']
  let logs := match setup.file with
    | some file => [(absolute file, setup.fileText time result.notes)]
    | none => []
  let console := setup.consoleText result.notes
  let done : Effect := { Effect.nothing with stderr := console, logs := logs }
  match result.outcome with
  | .ok text =>
    match output with
    | some file => { done with written := [(absolute file, text)] }
    | none => { done with stdout := text }
  | .error e =>
    match toldAs e with
    | some line => { done with exit := some 1, stderr := console ++ line }
    | none => { done with raised := some e }

/-- Runs the command that extracts variables. -/
def extractCommand (site : Site) (registry : Registry) (compiler : Compiler) (time entry : Text)
    (given : List Setting) (verbose : Bool) : Effect :=
  match lastGiven given .logFile with
  | some none => { Effect.nothing with raised := some .pathWithoutText }
  | some (some file) => extractWith site registry compiler time entry given verbose (some file)
  | none => extractWith site registry compiler time entry given verbose none

/-- Runs a command line. -/
def run (site : Site) (registry : Registry) (compiler : Compiler) (time : Text)
    (words : List Text) : Effect :=
  match Invocation.ofWords words with
  | .error (.help topic) => { Effect.nothing with exit := some 0, stdout := topic.text }
  | .error .usage => { Effect.nothing with exit := some 2, stderr := Topic.program.usageText }
  | .ok (.extract entry given verbose) =>
    extractCommand site registry compiler time entry given verbose
  | .ok (.serve host port _) => { Effect.nothing with served := some (host, port) }

end StyleVars.Command
