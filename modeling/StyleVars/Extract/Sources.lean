import StyleVars.Compile.Job
import StyleVars.Journal

/-!
# The texts of the compiled files

The texts of the files that took part in a compilation: the entry when it was given as a text, then
the texts the files were served with, then those on the disk.
-/

namespace StyleVars

/-- The normal forms of the entry and of the files of a compilation, the entry first and each once.
-/
def compiledFiles (place : Place) (sheets : SourceSet) : Except Failure (Text × List Text) := do
  let entry ← place.normalText sheets.entry
  let files ← sheets.files.mapM place.normalText
  return (entry, files.foldl Keyed.insertNew [entry])

/-- The texts of files in order. -/
def sheetTexts (site : Site) (files : List Text) (entry : Text) (data : Option Text)
    (loaded : Keyed Text Text) : Recorded (Keyed Text Text) := do
  let known ← loaded.mapM fun (name, text) => do
    let file ← site.place.normalText name
    return (file, text)
  let known := Keyed.ofList known
  let texts ← files.mapM fun file => do
    let text ←
      match (if file = entry then data else none).or (Keyed.get? file known) with
      | some text => pure text
      | none => site.disk.read site.place (.ofText file)
    return (file, text)
  let sources := Keyed.ofList texts
  Recorded.log "loader".toText .debug
    ("Loaded ".toText ++ Text.ofNat sources.length ++ " included files for ".toText ++ entry)
  return sources

end StyleVars
