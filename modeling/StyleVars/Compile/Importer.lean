import StyleVars.Failure

/-!
# Importers

An importer is asked for the style sheets that an import means. It may answer with files for the
compiler to read, with their text, or not at all.
-/

namespace StyleVars

/-- A file that an importer answers with, and its text unless the compiler is to read the file. -/
structure Served where
  name : Text
  source : Option Text
  deriving DecidableEq

/-- A function that is given the path of an import and, when it can take two arguments, the name of
the style sheet that has the import. -/
structure Importer where
  positional : Nat
  variadic : Bool
  answer : Text → Option Text → Except Failure (Option (List Served))

namespace Importer

/-- The importer can be given two arguments. -/
def takesPrevious (importer : Importer) : Bool := importer.variadic || 2 ≤ importer.positional

/-- Asks an importer, giving it as many arguments as it can take. -/
def call (importer : Importer) (path previous : Text) : Except Failure (Option (List Served)) :=
  if importer.takesPrevious then importer.answer path (some previous)
  else if importer.positional = 0 then .error .importerWithoutPath
  else importer.answer path none

end Importer
end StyleVars
