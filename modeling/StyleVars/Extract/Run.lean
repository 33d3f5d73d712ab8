import StyleVars.Extract.Preparation
import StyleVars.Extract.Variables

/-!
# Extracting variables

The variables of a compiled style sheet are learned by compiling it a second time with a hook for
each declaration, merging what the hooks captured, and applying the plugins to the payload. All of
this is written twice: for callers that cannot wait, and for those that wait for the compiler and
for plugins that answer later.
-/

namespace StyleVars

variable [ColorNames]

/-- The type of the first value that could not be captured, by the order of the files. -/
def firstRefusal (captures : List Captures) : Option Text := captures.findSome? Captures.failure

/-- How the second compilation ended, as the caller is told: when it failed because a value was
refused, the refusal is the failure. -/
def secondOutcome {α : Type} (captures : List Captures) : Except Failure α → Except Failure α
  | .error (.compile message) =>
    match firstRefusal captures with
    | some typeName => .error (.unsupportedType typeName (some message))
    | none => .error (.compile message)
  | outcome => outcome

/-- The variables that were captured. -/
def collectVariables (files : List SheetFile) (captures : List Captures) : Variables :=
  .merge ((files.map SheetFile.name).zip captures)

/-- The payload of the variables that were captured. -/
def collectPayload (files : List SheetFile) (captures : List Captures) : Recorded Data := do
  let vars := collectVariables files captures
  extractionLog .info ("Extracted ".toText ++ Text.ofNat vars.length ++ " variables from ".toText ++
    Text.ofNat files.length ++ " files".toText)
  return vars.payload

/-! ## For callers that cannot wait -/

/-- Extracts the variables of a compiled style sheet. -/
def extractAtOnce (site : Site) (registry : Registry) (compiler : Compiler) (sheets : SourceSet)
    (job : SheetJob) (specs : List PluginSpec) : Recorded Data := do
  let prepared ← prepare site registry sheets job specs
  let run := compile site compiler prepared.job (captureHooks prepared.pipeline prepared.files)
    (prepared.files.map fun _ => Captures.empty)
  Recorded.tell run.recorded.events
  let _ ← secondOutcome run.hooks run.recorded.outcome
  let payload ← collectPayload prepared.files run.hooks
  prepared.pipeline.runAtOnce payload

/-- Compiles a style sheet and extracts its variables. -/
def renderAtOnce (site : Site) (registry : Registry) (compiler : Compiler) (job : SheetJob)
    (specs : List PluginSpec) : Recorded (Compiled × Data) := do
  let compiled ← (compile site compiler job noHooks ()).recorded
  let vars ← extractAtOnce site registry compiler compiled.sources job specs
  return (compiled, vars)

/-! ## For callers that wait -/

/-- Extracts the variables of a compiled style sheet, waiting for the compiler and the plugins. -/
def extractAwaiting (site : Site) (registry : Registry) (compiler : Compiler) (sheets : SourceSet)
    (job : SheetJob) (specs : List PluginSpec) : Recorded Data := do
  let prepared ← prepare site registry sheets job specs
  let run := compileAwaiting site compiler prepared.job
    (captureHooks prepared.pipeline prepared.files) (prepared.files.map fun _ => Captures.empty)
  Recorded.tell run.recorded.events
  let _ ← secondOutcome run.hooks run.recorded.outcome
  let payload ← collectPayload prepared.files run.hooks
  prepared.pipeline.runAwaiting payload

/-- Compiles a style sheet and extracts its variables, waiting for the compiler and the plugins. -/
def renderAwaiting (site : Site) (registry : Registry) (compiler : Compiler) (job : SheetJob)
    (specs : List PluginSpec) : Recorded (Compiled × Data) := do
  let compiled ← (compileAwaiting site compiler job noHooks ()).recorded
  let vars ← extractAwaiting site registry compiler compiled.sources job specs
  return (compiled, vars)

/-! ## For either of them -/

/-- Extracts the variables of a compiled style sheet, in the form that is written for the caller. -/
def extract (site : Site) (registry : Registry) (compiler : Compiler) (patience : Patience)
    (sheets : SourceSet) (job : SheetJob) (specs : List PluginSpec) : Recorded Data :=
  match patience with
  | .none => extractAtOnce site registry compiler sheets job specs
  | .waits => extractAwaiting site registry compiler sheets job specs

/-- Compiles a style sheet and extracts its variables, in the form that is written for the caller.
-/
def render (site : Site) (registry : Registry) (compiler : Compiler) (patience : Patience)
    (job : SheetJob) (specs : List PluginSpec) : Recorded (Compiled × Data) :=
  match patience with
  | .none => renderAtOnce site registry compiler job specs
  | .waits => renderAwaiting site registry compiler job specs

end StyleVars
