import StyleVars.Command.Needs
import StyleVars.Command.Run
import StyleVars.Compile.LineCompiler
import StyleVars.Plugin.Installed
import StyleVars.Value.CssColors

/-!
# The program

Reads the files that the command line needs, runs it, and carries out what it asks for. Style sheets
are compiled line by line, all of their variables being null.
-/

namespace StyleVars

/-- The directory that a setting of the environment names, the root when there is none. -/
def directoryOf (setting : Option String) : Path := .ofText (setting.getD "/").toText

/-- The home directories in a table of users: lines of fields between colons, of which the first is
the name and the sixth one the directory. -/
def homesOf (table user : Text) : Option Path :=
  (Text.splitOn '\n' table).findSome? fun line =>
    match Text.splitOn ':' line with
    | name :: _ :: _ :: _ :: _ :: home :: _ => if name = user then some (.ofText home) else none
    | _ => none

/-- The directories that the environment and the table of users name. -/
def currentPlace : IO Place := do
  let table ← (IO.FS.readFile "/etc/passwd").toBaseIO
  return {
    workDir := directoryOf (← IO.getEnv "PWD")
    home := directoryOf (← IO.getEnv "HOME")
    homes := homesOf (table.toOption.getD "").toText }

/-- What has been found on the disk, by paths as they are written: files with their bytes, and
directories. -/
structure Found where
  files : Keyed Text (List Nat)
  directories : List Text

namespace Found

/-- The disk as far as it has been found. -/
def disk (found : Found) : Disk where
  bytesAt p := Keyed.get? p.toText found.files
  isDirectoryAt p := found.directories.contains p.toText

/-- Looks at a path that has not been found yet. -/
def look (found : Found) (p : Path) : IO Found := do
  let name := p.toText
  if (Keyed.get? name found.files).isSome || found.directories.contains name then return found
  match ← (IO.FS.readBinFile (Text.toString name)).toBaseIO with
  | .ok bytes =>
    return { found with files := found.files ++ [(name, bytes.toList.map UInt8.toNat)] }
  | .error _ =>
    -- only below a directory there is a dot
    match ← (IO.FS.realPath (Text.toString (name ++ "/.".toText))).toBaseIO with
    | .ok _ => return { found with directories := found.directories ++ [name] }
    | .error _ => return found

/-- What a command line needs, found in at most the given number of rounds. -/
def readNeeds (place : Place) (words : List Text) : Nat → Found → IO Found
  | 0, found => return found
  | rounds + 1, found => do
    let sheets := (Keyed.keys found.files).map Path.ofText
    let more ← (Command.needs ⟨found.disk, place⟩ sheets words).foldlM look found
    if more.files.length = found.files.length then return more
    else readNeeds place words rounds more

end Found

/-- Adds a text to the end of a file. -/
def appendFile (name text : Text) : IO Unit := do
  let handle ← IO.FS.Handle.mk (Text.toString name) .append
  handle.putStr (Text.toString text)

/-- Carries out what a command line asks for, and gives the exit status. -/
def carryOut (effect : Command.Effect) : IO UInt32 := do
  for (name, text) in effect.logs do
    appendFile name text
  for (name, text) in effect.written do
    IO.FS.writeFile (Text.toString name) (Text.toString text)
  IO.print (Text.toString effect.stdout)
  IO.eprint (Text.toString effect.stderr)
  match effect.raised, effect.served with
  | some failure, _ =>
    IO.eprintln (Text.toString failure.message)
    return 1
  | none, some (host, port) =>
    IO.eprintln (Text.toString ("no connections are accepted on ".toText ++ host.getD [] ++
      .char ':' :: ((port.map Text.ofInt).getD [])))
    return 1
  | none, none => return (effect.exit.getD 0).toUInt32

end StyleVars

open StyleVars StyleVars.CssColors in
/-- Runs a command line. -/
def main (words : List String) : IO UInt32 := do
  let words := words.map String.toText
  let place ← currentPlace
  -- No chain of imports is followed further than the compiler follows it.
  let found ← Found.readNeeds place words (LineCompiler.maxDepth + 2) ⟨[], []⟩
  let site : Site := ⟨found.disk, place⟩
  let now := Text.ofNat (← IO.monoMsNow)
  let compiler := lineCompiler site []
  carryOut (Command.run site installedPlugins compiler now words)
