import StyleVars.Compile.Job

/-!
# The record of imports

While a style sheet is compiled, every file that is loaded is recorded, in the order in which the
files are first loaded and with the text that was served last.
-/

namespace StyleVars

/-- The files loaded so far and the texts they were served with. -/
structure ImportRecord where
  files : List Text
  sources : Keyed Text Text

namespace ImportRecord

/-- Nothing but the entry. -/
def start (entry : Text) : ImportRecord := ⟨[entry], []⟩

/-- The record with one more file, and its text when it is known. -/
def record (r : ImportRecord) (file : Text) (source : Option Text) : ImportRecord :=
  { files := Keyed.insertNew r.files file
    sources :=
      match source with
      | some text => Keyed.put file text r.sources
      | none => r.sources }

/-- The record with the answer of an importer, names being read in the directory `base`. -/
def recordAll (place : Place) (base : Path) (r : ImportRecord) (served : List Served) :
    ImportRecord :=
  served.foldl
    (fun r s => r.record (place.absolute (base.join (.ofText s.name))).toText s.source) r

end ImportRecord

/-- Asks an importer of the caller and records its answer. -/
def askRecorded (site : Site) (entry : Text) (importer : Importer) (path previous : Text)
    (r : ImportRecord) : Except Failure (Option (List Served)) × ImportRecord :=
  match importer.call path previous with
  | .error e => (.error e, r)
  | .ok none => (.ok none, r)
  | .ok (some []) => (.ok (some []), r)
  | .ok (some served) =>
    match importingDirectory site.place previous entry with
    | .error e => (.error e, r)
    | .ok base => (.ok (some served), r.recordAll site.place (.ofText base) served)

/-- Looks up an import on the disk and records the file. The text of a style sheet in the indented
notation is left for the compiler to read. -/
def resolveRecorded (site : Site) (entry : Text) (includePaths : List Text) (path previous : Text)
    (r : ImportRecord) : Except Failure (Option (List Served)) × ImportRecord :=
  let located := do
    let base ← importingDirectory site.place previous entry
    locateImport site.disk site.place path (base :: includePaths)
  match located with
  | .error e => (.error e, r)
  | .ok none => (.ok none, r)
  | .ok (some target) =>
    if isIndented target then (.ok (some [⟨target, none⟩]), r.record target none)
    else
      match site.disk.read site.place (.ofText target) with
      | .error e => (.error e, r)
      | .ok text => (.ok (some [⟨target, some text⟩]), r.record target (some text))

end StyleVars
