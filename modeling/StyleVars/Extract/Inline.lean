import StyleVars.Compile.Job
import StyleVars.Journal
import StyleVars.Path.Spelling

/-!
# Inlining imports

The text to compile for an extraction is the text of the entry in which every import of a known file
is replaced by the text of that file. Other imports are left for the compiler.
-/

namespace StyleVars

/-- The known files and their texts. -/
abbrev KnownSources := Keyed Text Text

/-- The first of the files that an import of the given spelling means in a directory. -/
def findSpelling (place : Place) (importer wanted base : Text) :
    List Text → Except Failure (Option Text)
  | [] => .ok none
  | file :: rest =>
    if file = importer then findSpelling place importer wanted base rest
    else do
      let spellings ← fileSpellings place file base
      if wanted ∈ spellings then return some file else findSpelling place importer wanted base rest

/-- The known file that an import means, looked up in the given directories one after the other. -/
def findTarget (place : Place) (files : List Text) (importer wanted : Text) :
    List Text → Except Failure (Option Text)
  | [] => .ok none
  | base :: rest => do
    match ← findSpelling place importer wanted base files with
    | some file => return some file
    | none => findTarget place files importer wanted rest

/-- The known file that an import of a path means in the file `importer`: first as seen from there,
then as seen from the include paths. -/
def knownTarget (place : Place) (known : KnownSources) (includePaths : List Text)
    (importer path : Text) : Except Failure (Option Text) :=
  findTarget place (Keyed.keys known) importer (spellingText path)
    (Path.directoryText importer :: includePaths)

/-- The known file that a target of an import in `file` means. Plain imports and the empty path mean
none. -/
def targetFile (place : Place) (known : KnownSources) (includePaths : List Text) (file : Text)
    (target : ImportTarget) : Except Failure (Option Text) :=
  match target.path with
  | some (c :: rest) => knownTarget place known includePaths file (c :: rest)
  | _ => .ok none

/-- What replaces an import statement: the texts so far, and the targets left in place since the
last of them. -/
structure Replacement where
  blocks : List Text
  left : List Text

namespace Replacement

/-- The texts with the targets left in place put into a statement of their own. -/
def flush (r : Replacement) : Replacement :=
  if r.left = [] then r
  else ⟨r.blocks ++ ["@import ".toText ++ Text.join ", ".toText r.left ++ [.char ';']], []⟩

/-- The text that replaces the statement. -/
def text (r : Replacement) : Text := Text.join ['\n'] r.flush.blocks

end Replacement

/-- The messages about imports. -/
def importLog (message : Text) : Recorded Unit := .log "imports".toText .debug message

/-- Replaces one target of an import, `inline` giving the text of a file. -/
def replaceTarget (place : Place) (known : KnownSources) (includePaths : List Text)
    (inline : Text → Recorded Text) (file : Text) (r : Replacement) (target : ImportTarget) :
    Recorded Replacement := do
  match ← Recorded.lift (targetFile place known includePaths file target) with
  | none =>
    importLog ("Leaving import ".toText ++ target.raw ++ " in ".toText ++ file ++
      " to the compiler".toText)
    return { r with left := r.left ++ [target.raw] }
  | some found =>
    importLog ("Inlining ".toText ++ found ++ " into ".toText ++ file)
    let text ← inline found
    return { r.flush with blocks := r.flush.blocks ++ [text] }

/-- The text from an offset on with the import statements in it replaced. -/
def spliceFrom (source : Text) (replace : ImportRule → Recorded Text) (cursor : Nat) :
    List ImportRule → Recorded Text
  | [] => return source.drop cursor
  | statement :: rest => do
    let text ← replace statement
    let more ← spliceFrom source replace statement.stop rest
    return (source.take statement.start).drop cursor ++ text ++ more

/-- The text of a file with its imports inlined, at most `depth` files deep; `chain` holds the files
that are being inlined already. -/
def inlineWithin (place : Place) (known : KnownSources) (includePaths : List Text) :
    Nat → List Text → Text → Recorded Text
  | 0, chain, file => throw (.cyclicImport (chain ++ [file]))
  | depth + 1, chain, file =>
    if file ∈ chain then throw (.cyclicImport (chain ++ [file]))
    else
      match Keyed.get? file known with
      | none => throw (.unknownFile file)
      | some source =>
        let inline := inlineWithin place known includePaths depth (chain ++ [file])
        spliceFrom source (fun statement => do
          let r ← statement.targets.foldlM
            (replaceTarget place known includePaths inline file) ⟨[], []⟩
          return r.text) 0 (imports source)

/-- The text of a file with its imports inlined. A chain of different known files is no longer than
the list of them, so one that would be longer comes back to one of its files. -/
def inlineImports (place : Place) (known : KnownSources) (includePaths : List Text) (entry : Text) :
    Recorded Text :=
  inlineWithin place known includePaths (known.length + 1) [] entry

/-- The importer for the imports that are left in place: it serves known files that are found on the
disk. -/
def knownImporter (site : Site) (known : KnownSources) (entry : Text) (includePaths : List Text) :
    Importer where
  positional := 2
  variadic := false
  answer path previous :=
    if isPlainImport path then .ok none
    else do
      let base ← importingDirectory site.place (previous.getD []) entry
      match ← locateImport site.disk site.place path (base :: includePaths) with
      | none => return none
      | some target =>
        return (Keyed.get? target known).map fun text => [⟨target, some text⟩]

end StyleVars
