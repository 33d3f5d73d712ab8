import StyleVars.Disk
import StyleVars.Compile.Work
import StyleVars.Path.Lookup

/-!
# What to compile

A style sheet is given as a file or as a text. When both are given, the text is compiled and the
file says where it stands.
-/

namespace StyleVars

/-- The files and where the program runs. -/
structure Site where
  disk : Disk
  place : Place

/-- What to compile and how. -/
structure SheetJob where
  file : Option Text
  data : Option Text
  includePaths : List Text
  outputStyle : Text
  precision : Int
  importers : List Importer
  functions : Keyed Text HostFunction

namespace SheetJob

/-- Nothing to compile yet, and everything as it is by default. -/
def default : SheetJob :=
  { file := none, data := none, includePaths := [], outputStyle := "nested".toText, precision := 5
    importers := [], functions := [] }

/-- The file that the style sheet stands for. -/
def sheetPath (job : SheetJob) (place : Place) : Except Failure Text :=
  match job.file with
  | some (c :: rest) => place.normalText (c :: rest)
  | _ => place.normalForm (place.workDir.child textSource) |>.map Path.toText

end SheetJob

/-- The files that took part in a compilation: the entry, all of them in the order in which they
were first loaded, and the texts of those that were loaded with their text. -/
structure SourceSet where
  entry : Text
  files : List Text
  texts : Keyed Text Text

/-- The result of a compilation. -/
structure Compiled where
  css : Text
  sources : SourceSet

end StyleVars
