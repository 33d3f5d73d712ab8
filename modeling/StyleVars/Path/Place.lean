import StyleVars.Failure
import StyleVars.Path.Basic

/-!
# Where a program runs

A relative path starts at the working directory, and a path whose first part starts with a tilde at
a home directory. The normal form of a path is absolute and collapsed; files are told apart by it.
-/

namespace StyleVars

/-- The working directory, the home directory, and the home directories of other users, as far as
the system knows them. -/
structure Place where
  workDir : Path
  home : Path
  homes : Text → Option Path

namespace Place

/-- A place with the given directories where no other user is known. -/
def alone (workDir home : Path) : Place := ⟨workDir, home, fun _ => none⟩

/-- The home directory of a user, one's own when no name is given. -/
def homeOf? (place : Place) (user : Text) : Option Path :=
  if user = [] then some place.home else place.homes user

/-- A path with a tilde and the name of a user at its start replaced by the home directory. -/
def expandHome (place : Place) (p : Path) : Except Failure Path :=
  match p.root, p.parts with
  | .relative, ('~' :: user) :: rest =>
    match place.homeOf? user with
    | some home => .ok ⟨home.root, home.parts ++ rest⟩
    | none => .error .noHome
  | _, _ => .ok p

/-- The absolute and collapsed form of a path without regard to tildes. -/
def absolute (place : Place) (p : Path) : Path := (place.workDir.join p).collapse

/-- The normal form of a path. -/
def normalForm (place : Place) (p : Path) : Except Failure Path :=
  (place.expandHome p).map place.absolute

/-- The text of the normal form of a path. -/
def normalText (place : Place) (t : Text) : Except Failure Text :=
  (place.normalForm (.ofText t)).map Path.toText

end Place
end StyleVars
