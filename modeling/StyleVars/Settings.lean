import StyleVars.Data.JsonReader
import StyleVars.Data.Levels
import StyleVars.Extract.Run
import StyleVars.Settings.Notation

/-!
# Settings

A project keeps its settings in a file `.sassvars.yml`: include paths, the style and the precision
of the output, and plugins. A file that is missing, blank or made of comments gives no settings.
-/

namespace StyleVars

/-- The name of the settings file. -/
def settingsName : Text := ".sassvars.yml".toText

/-- The settings of a project; `root` is the directory of the settings file. -/
structure Settings where
  root : Path
  includePaths : List Path
  outputStyle : Option Text
  precision : Option Int
  plugins : List Data

namespace Settings

/-- No settings. -/
def empty (root : Path) : Settings := ⟨root, [], none, none, []⟩

/-- The settings file that a path means: one in a directory, one beside another file, or itself. -/
def locate (site : Site) (p : Path) : Except Failure Path := do
  let p ← site.place.expandHome p
  return site.place.absolute <|
    if site.disk.isDirectory site.place p then p.child settingsName
    else if p.name ≠ settingsName then p.parent.child settingsName
    else p

/-- What may stand in a document: no surrogate, no control character, except for the white space of
lines, and none of the last two code points of sixteen bits. -/
def isDocumentChar (c : CodePoint) : Bool :=
  let n := c.toNat
  !c.isSurrogate && (n = 9 || n = 10 || n = 13 || (32 ≤ n && n ≤ 126) || n = 0x85 ||
    (0xA0 ≤ n && n ≠ 0xFFFE && n ≠ 0xFFFF))

/-- A text without the byte order mark at its start. -/
def dropOrderMark : Text → Text
  | '\ufeff' :: rest => rest
  | t => t

/-- How deeply the lists and mappings of a document may be nested. -/
def maxDepth : Nat := 486

/-- The number of digits of an integer that has too many. -/
def excessDigits? : Data → Option Nat
  | .int n =>
    let digits := (Text.ofNat n.natAbs).length
    if maxDigits < digits then some digits else none
  | _ => none

/-- The value of the content of a document, in which surrogates are not joined. Its integers may not
be too long, which is found only once all of it has been read; then the outermost come first, and
all entries count, also those that are merged. -/
def contentValue (content : Text) : Except Failure Data :=
  match Data.readEntries ⟨maxDepth, content.length, false⟩ content with
  | .ok d =>
    match d.levels.flatten.findSome? excessDigits? with
    | some digits => .error (.longInteger digits)
    | none => .ok d.merged
  | .error .tooDeep => .error .nestedTooDeep
  | .error _ => .error (.settings .malformed)

/-- The value of a document, nothing for one without content. -/
def document (t : Text) : Except Failure Data :=
  if t.all isBlank then .ok .null
  else if !t.all isDocumentChar then .error (.settings .malformed)
  else
    match plainJson? (dropOrderMark t) with
    | none => .error (.settings .malformed)
    | some content =>
      if content.all fun c => c = ' ' ∨ c = '\n' then .ok .null else contentValue content

/-- The entries of a mapping; any other value has none. -/
def entriesOf : Option Data → Data.Entries
  | some (.mapping entries) => entries
  | _ => []

/-- A text, a number or a truth value as a text. -/
def scalarText? : Data → Option Text
  | .null | .list _ | .mapping _ => none
  | d => some d.toText

/-- The texts that a setting lists. One text stands for a list of one. -/
def textList : Option Data → List Text
  | some (.text t) => [t]
  | some (.list items) => items.filterMap scalarText?
  | _ => []

/-- An integer, or a text that can be read as one. -/
def integer? : Option Data → Option Int
  | some (.int n) => some n
  | some (.text t) => intOfTyped? t
  | _ => none

/-- An entry of the list of plugins: a name, or a mapping of which the name and the options are
kept. -/
def pluginEntry (d : Data) : Except Failure Data :=
  match d, d.get? "plugin".toText with
  | .text t, _ => .ok (.text t)
  | _, some (.text t) =>
    .ok (.ofFields [("plugin".toText, .text t),
      ("options".toText, .mapping (entriesOf (d.get? "options".toText)))])
  | _, _ => .error (.settings (.pluginEntry d))

/-- The list of plugins. One name or one mapping stands for a list of one. -/
def pluginList : Option Data → Except Failure (List Data)
  | none => .ok []
  | some .null => .ok []
  | some (.list items) => items.mapM pluginEntry
  | some (.text t) => [Data.text t].mapM pluginEntry
  | some (.mapping entries) => [Data.mapping entries].mapM pluginEntry
  | some _ => .error (.settings .pluginsNotList)

/-- The settings that a document gives. -/
def ofData (root : Path) (d : Data) : Except Failure Settings :=
  if d.isEmpty then .ok (.empty root)
  else
    match d with
    | .mapping entries => do
      let compiling := entriesOf (Data.field? "compile".toText entries)
      let extracting := entriesOf (Data.field? "extract".toText entries)
      let plugins ← pluginList (Data.field? "plugins".toText extracting)
      return {
        root := root
        includePaths := (textList (Data.field? "include_paths".toText compiling)).map
          fun t => root.join (.ofText t)
        outputStyle := (Data.field? "output_style".toText compiling).bind scalarText?
        precision := integer? (Data.field? "precision".toText compiling)
        plugins := plugins }
    | _ => .error (.settings .notMapping)

/-- The settings that a path means. Nothing can be read from a directory of the name of the settings
file. -/
def load (site : Site) (p : Path) : Except Failure Settings := do
  let file ← locate site p
  if site.disk.isFile site.place file || site.disk.isDirectory site.place file then
    let d ← document (← site.disk.read site.place file)
    ofData file.parent d
  else return .empty file.parent

/-- What is compiled, and how, under these settings. -/
def job (settings : Settings) (file data : Option Text) : SheetJob :=
  { SheetJob.default with
    file := file
    data := data
    includePaths := settings.includePaths.map Path.toText
    outputStyle := (settings.outputStyle.filter (· ≠ [])).getD SheetJob.default.outputStyle
    precision := settings.precision.getD SheetJob.default.precision }

end Settings
end StyleVars
