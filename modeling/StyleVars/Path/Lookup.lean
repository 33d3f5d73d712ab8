import StyleVars.Disk
import StyleVars.Sheet.Import

/-!
# Looking up imports

The path of an import leaves out much of the name of the file: its extension, the underscore of a
partial, and the name of an index file. The candidates are tried in a fixed order in one directory
after the other, and the first one that is a file is taken.
-/

namespace StyleVars

/-- The name by which the compiler knows a style sheet that was given as text. -/
def textSource : Text := "stdin".toText

/-- The extensions of style sheets. -/
def sheetExtensions : List Text := [".scss".toText, ".sass".toText, ".css".toText]

/-- The extension of the indented notation. -/
def indentedExtension : Text := ".sass".toText

/-- A path to a style sheet in the indented notation. -/
def isIndented (path : Text) : Bool := indentedExtension.isSuffixOf path

/-- A path without the extension of a style sheet. -/
def stripExtension (path : Text) : Text :=
  (sheetExtensions.findSome? fun extension => Text.dropEnd? extension path).getD path

/-- The directory in which the imports of the file `previous` are looked up first. A style sheet
given as text stands where the entry stands. -/
def importingDirectory (place : Place) (previous entry : Text) : Except Failure Text :=
  if previous = [] ∨ previous = textSource then .ok (Path.ofText entry).parent.toText
  else (place.normalForm (.ofText previous)).map fun p => p.parent.toText

/-- The files that an import of a path can mean, in the order in which they are tried. -/
def possibleFiles (path : Text) : List Path :=
  let target := Path.ofText path
  let partial? (name : Text) := target.parent.child ('_' :: name)
  let extension := Path.extension target.name
  if extension = ".scss".toText ∨ extension = indentedExtension then
    [partial? target.name, target]
  else
    sheetExtensions.flatMap (fun ending =>
      [partial? (target.name ++ ending), target.parent.child (target.name ++ ending)]) ++
    sheetExtensions.flatMap fun ending =>
      [target.child ("_index".toText ++ ending), target.child ("index".toText ++ ending)]

/-- The file that an import of a path means, looked up in the given directories. -/
def locateImport (disk : Disk) (place : Place) (path : Text) (directories : List Text) :
    Except Failure (Option Text) :=
  if isPlainImport path then .ok none
  else
    let locations := directories.flatMap fun directory =>
      (possibleFiles path).map (Path.ofText directory).join
    match locations.find? (disk.isFile place) with
    | none => .ok none
    | some location => (place.normalForm location).map fun p => some p.toText

end StyleVars
