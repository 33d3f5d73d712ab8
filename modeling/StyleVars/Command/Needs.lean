import StyleVars.Command.Arguments
import StyleVars.Settings
import StyleVars.Sheet.Import

/-!
# The files that a command line needs

Which files a command line may read follows from its words and from the files that are there: the
settings, the entry, and what the imports of the style sheets read so far can mean. A caller who
does not hold all files finds the needed ones by asking again until no new one turns up.
-/

namespace StyleVars.Command

/-- Where a path is looked up: as it is written, and collapsed. -/
def lookedUp (site : Site) (p : Path) : List Path :=
  [site.place.workDir.join p, site.place.absolute p]

/-- The settings file and the entry of a command line that extracts variables. -/
def firstNeeds (site : Site) (entry : Path) (given : List Setting) : List Path :=
  let place := ((lastText given .config).map Path.ofText).getD entry.parent
  [entry, place, place.child settingsName, place.parent.child settingsName].flatMap (lookedUp site)

/-- The directories in which imports are looked up besides that of the importing file. -/
def searchedDirectories (site : Site) (entry : Path) (given : List Setting) : List Path :=
  let place := ((lastText given .config).map Path.ofText).getD entry.parent
  let configured :=
    match Settings.load site place with
    | .ok settings => settings.includePaths
    | .error _ => []
  entry.parent :: configured ++ (allGiven given .includePath).filterMap (·.map Path.ofText)

/-- The files that the imports of a style sheet can mean. -/
def importNeeds (site : Site) (directories : List Path) (sheet : Path) : List Path :=
  match site.disk.read site.place sheet with
  | .error _ => []
  | .ok text =>
    let paths := (imports text).flatMap fun statement => statement.targets.filterMap (·.path)
    (sheet.parent :: directories).flatMap fun directory =>
      paths.flatMap fun path =>
        (possibleFiles path).flatMap fun candidate => lookedUp site (directory.join candidate)

/-- The files that a command line may read, as far as the given files on the disk tell. -/
def needs (site : Site) (sheets : List Path) (words : List Text) : List Path :=
  match Invocation.ofWords words with
  | .ok (.extract entry given _) =>
    match site.place.expandHome (.ofText entry) with
    | .error _ => []
    | .ok entry =>
      let directories := searchedDirectories site entry given
      firstNeeds site entry given ++
        sheets.flatMap (importNeeds site directories)
  | _ => []

end StyleVars.Command
