import StyleVars.Compile.Record
import StyleVars.Journal

/-!
# One compilation

A compilation asks the importers of the caller first and the disk last. Its result tells, besides
the compiled text, which files took part in it.
-/

namespace StyleVars

/-- How a compilation went, and the state in which it left the hooks. -/
structure CompileRun (σ : Type) where
  recorded : Recorded Compiled
  hooks : σ

/-- How the hook of a declaration of a file answers a value. -/
abbrev Hooks (σ : Type) := Nat → Nat → Native → σ → Except Failure (Option Text) × σ

variable {σ : Type}

/-- The host of a compilation: the importers of the caller, then the disk; the functions of the
caller, which answer with nothing if they take the value at all, and the hooks. -/
def compileHost (site : Site) (entry : Text) (includePaths : List Text) (importers : List Importer)
    (functions : List HostFunction) (hooks : Hooks σ) : Host (ImportRecord × σ) where
  lookUp i path previous := fun (r, s) =>
    let (answer, r') :=
      match importers[i]? with
      | some importer => askRecorded site entry importer path previous r
      | none => resolveRecorded site entry includePaths path previous r
    (answer, (r', s))
  call i argument := fun (r, s) =>
    match functions[i]? with
    | some (.hook file declaration) =>
      let (answer, s') := hooks file declaration argument s
      (answer, (r, s'))
    | some (.custom function) =>
      (if function.takesOne then .ok none else .error .parameterCount, (r, s))
    | none => (.ok none, (r, s))

/-- What the compiler is told, and the entry. -/
def compileRequest (site : Site) (job : SheetJob) :
    Except Failure (Text × List Text × CompileRequest) := do
  if job.data.isNone ∧ job.file.getD [] = [] then throw .nothingToCompile
  let entry ← job.sheetPath site.place
  let includePaths ← job.includePaths.mapM site.place.normalText
  let heads ← HostFunction.heads job.functions
  let (input, searched) ←
    match job.data with
    | some text => do
      let directory ← importingDirectory site.place textSource entry
      pure (CompileInput.source text, directory :: includePaths)
    | none => pure (CompileInput.file entry, includePaths)
  return (entry, includePaths,
    { input := input
      includePaths := searched
      outputStyle := job.outputStyle
      precision := job.precision
      importerCount := job.importers.length + 1
      functions := heads })

/-- The message that announces a compilation. -/
def compileNote (entry : Text) : CompileInput → Text
  | .source _ => "Compiling source data for ".toText ++ entry
  | .file _ => "Compiling file ".toText ++ entry

/-- Compiles a style sheet. -/
def compile (site : Site) (compiler : Compiler) (job : SheetJob) (hooks : Hooks σ) (s : σ) :
    CompileRun σ :=
  match compileRequest site job with
  | .error e => ⟨.fail e, s⟩
  | .ok (entry, includePaths, request) =>
    let host := compileHost site entry includePaths job.importers
      (job.functions.map Prod.snd) hooks
    let run := (compiler request).run host (.start entry, s)
    let (record, s') := run.state
    let result := run.outcome.map fun css =>
      { css := css, sources := ⟨entry, record.files, record.sources⟩ : Compiled }
    ⟨⟨[.note ⟨"compiler".toText, .debug, compileNote entry request.input⟩,
        .pass ⟨request, run.trace⟩], result⟩, s'⟩

/-- Compiles a style sheet while its caller waits: the same compilation, carried out elsewhere. -/
def compileAwaiting (site : Site) (compiler : Compiler) (job : SheetJob) (hooks : Hooks σ) (s : σ) :
    CompileRun σ :=
  compile site compiler job hooks s

/-- Hooks for a compilation that has none. -/
def noHooks : Hooks Unit := fun _ _ _ s => (.ok none, s)

end StyleVars
