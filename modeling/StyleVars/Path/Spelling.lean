import StyleVars.Path.Lookup

/-!
# Spellings of an import

Files that are already loaded are found without the disk: the path of an import and the path of a
file are brought to one spelling, without extension and without the underscore of a partial.
-/

namespace StyleVars

/-- A text without the references to the current directory at its start. -/
def dropCurrent : Text → Text
  | '.' :: '/' :: rest => dropCurrent rest
  | t => t

/-- The path with one underscore less at the start of its last part. -/
def dropPartialMark (p : Path) : Path :=
  match p.name with
  | '_' :: name => p.parent.child name
  | _ => p

/-- The spelling to which the path of an import is brought. -/
def spelling (path : Text) : Path :=
  dropPartialMark (Path.ofText (stripExtension (dropCurrent (Text.strip path)))).collapse

/-- The text of the spelling of a path. -/
def spellingText (path : Text) : Text := (spelling path).toText

/-- The spellings of the imports that mean a file when they stand in the directory `base`: that of
its relative path, and for an index file also that of its directory. -/
def fileSpellings (place : Place) (file base : Text) : Except Failure (List Text) :=
  if file = [] then .error .emptyPath
  else
    let relative := Path.relativeTo (place.absolute (.ofText base)) (place.absolute (.ofText file))
    let p := spelling relative.toText
    if p.name = "index".toText ∧ (p.isAbsolute ∨ 1 < p.parts.length) then
      .ok [p.toText, p.parent.toText]
    else .ok [p.toText]

end StyleVars
