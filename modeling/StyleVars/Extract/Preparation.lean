import StyleVars.Extract.Inline
import StyleVars.Extract.Sources
import StyleVars.Extract.Instrument
import StyleVars.Plugin.Registry

/-!
# Preparing the second compilation

Between the compilation whose variables are wanted and the one that captures them, every file of the
first is read and instrumented, and the imports of known files are inlined.
-/

namespace StyleVars

variable [ColorNames]

/-- The functions for a compilation: the hooks of all files and the functions of the caller. Of
several with one normalized name the last is taken, in the place of the first. -/
def hostFunctions (files : List SheetFile) (custom : Keyed Text HostFunction) :
    Except Failure (Keyed Text HostFunction) := do
  let merged ← (files.flatMap SheetFile.hooks ++ custom).foldlM
    (fun (merged : Keyed Text (Text × HostFunction)) (signature, function) => do
      let name ← signatureName signature
      return Keyed.put name (signature, function) merged) []
  return merged.map Prod.snd

/-- What is prepared between the two compilations. -/
structure Preparation where
  files : List SheetFile
  job : SheetJob
  pipeline : Pipeline

/-- A message about the extraction itself. -/
def extractionLog (level : Level) (message : Text) : Recorded Unit :=
  .log "extractor".toText level message

/-- The files with their declarations, numbered from the given number on. -/
def readSources (index : Nat) : Keyed Text Text → Recorded (List SheetFile)
  | [] => return []
  | (name, source) :: rest => do
    let file := SheetFile.ofSource name index source
    extractionLog .debug ("Parsed ".toText ++ Text.ofNat file.declarations.length ++
      " declarations from ".toText ++ name)
    let files ← readSources (index + 1) rest
    return file :: files

/-- The instrumented texts of files. -/
def knownSources (files : List SheetFile) : KnownSources :=
  files.map fun file => (file.name, file.instrumented)

/-- Prepares the second compilation of a compiled style sheet. -/
def prepare (site : Site) (registry : Registry) (sheets : SourceSet)
    (job : SheetJob) (specs : List PluginSpec) : Recorded Preparation := do
  let pipeline ← Pipeline.ofSpecs registry specs
  let (entry, included) ← compiledFiles site.place sheets
  extractionLog .info ("Extracting variables from ".toText ++ entry)
  match included.find? isIndented with
  | some file => throw (.unsupportedSyntax file)
  | none => pure ()
  let sources ← sheetTexts site included entry job.data sheets.texts
  let files ← readSources 0 sources
  let includePaths ← (job.includePaths.mapM site.place.normalText : Except Failure _)
  let known := knownSources files
  let data ← inlineImports site.place known includePaths entry
  let functions ← hostFunctions files job.functions
  return {
    files := files
    pipeline := pipeline
    job := { job with
      file := some entry
      data := some data
      functions := functions
      importers := job.importers ++ [knownImporter site known entry includePaths] } }

end StyleVars
