import StyleVars.Keyed
import StyleVars.Path.Place
import StyleVars.Text.Utf8

/-!
# The disk

What is found on the disk depends on how a path is written: a step up from a directory that is not
there leads nowhere. Files are read as UTF-8, and every kind of line break becomes a line feed.
-/

namespace StyleVars

/-- The bytes of the file at an absolute path, and whether a directory is there. The path may have
steps up in it. -/
structure Disk where
  bytesAt : Path → Option (List Nat)
  isDirectoryAt : Path → Bool

/-- A text with every carriage return, alone or before a line feed, made a line feed. -/
def normalizeLines : Text → Text
  | [] => []
  | '\r' :: '\n' :: rest => '\n' :: normalizeLines rest
  | '\r' :: rest => '\n' :: normalizeLines rest
  | c :: rest => c :: normalizeLines rest

namespace Disk

/-- The bytes of the file at a path. -/
def bytes? (disk : Disk) (place : Place) (p : Path) : Option (List Nat) :=
  disk.bytesAt (place.workDir.join p)

/-- There is a file at a path. -/
def isFile (disk : Disk) (place : Place) (p : Path) : Bool := (disk.bytes? place p).isSome

/-- There is a directory at a path. -/
def isDirectory (disk : Disk) (place : Place) (p : Path) : Bool :=
  disk.isDirectoryAt (place.workDir.join p)

/-- The text of the file at a path. -/
def read (disk : Disk) (place : Place) (p : Path) : Except Failure Text :=
  match disk.bytes? place p with
  | none => .error (.missingFile p.toText)
  | some bytes => (Utf8.decode bytes).map normalizeLines

/-! ## Disks without links -/

/-- A directory is the root, or a file lies below it. -/
def liesAbove (files : Keyed Text (List Nat)) (directory : Path) : Bool :=
  directory.parts.isEmpty || files.any fun (file, _) =>
    let path := Path.ofText file
    path.root = directory.root && directory.parts.isPrefixOf path.parts &&
      directory.parts.length < path.parts.length

/-- Every part of a path is looked up in a directory. -/
def isReached (files : Keyed Text (List Nat)) (p : Path) : Bool :=
  (List.range p.parts.length).all fun n =>
    liesAbove files (Path.collapse { p with parts := p.parts.take n })

/-- The disk that has the given files, by the texts of their collapsed paths, the directories above
them and nothing else. -/
def ofFiles (files : Keyed Text (List Nat)) : Disk where
  bytesAt p := if isReached files p then Keyed.get? p.collapse.toText files else none
  isDirectoryAt p := isReached files p && liesAbove files p.collapse

end Disk
end StyleVars
