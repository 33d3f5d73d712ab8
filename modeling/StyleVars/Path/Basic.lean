import StyleVars.Text.Basic

/-!
# Paths

A path is a root and its parts. Reading a path drops empty parts and single dots; two dots stay
until the path is collapsed. A path that starts with exactly two slashes has a root of its own.
-/

namespace StyleVars

/-- Where a path starts. -/
inductive Root
  | relative
  | slash
  | doubleSlash
  deriving DecidableEq, Inhabited

/-- The slashes of a root. -/
def Root.text : Root → Text
  | relative => []
  | slash => ['/']
  | doubleSlash => ['/', '/']

/-- A root and the parts below it. -/
structure Path where
  root : Root
  parts : List Text
  deriving DecidableEq, Inhabited

namespace Path

/-- The root that the slashes at the start of a text give. -/
def rootOf : Text → Root
  | '/' :: '/' :: '/' :: _ => .slash
  | '/' :: '/' :: _ => .doubleSlash
  | '/' :: _ => .slash
  | _ => .relative

/-- A part that names something: neither empty nor a single dot. -/
def isPart (part : Text) : Bool := part ≠ [] && part ≠ [.char '.']

/-- Reads a path. -/
def ofText (t : Text) : Path := ⟨rootOf t, (Text.splitOn '/' t).filter isPart⟩

/-- Writes a path; the relative path of no parts is a dot. -/
def toText (p : Path) : Text :=
  if p.root = .relative ∧ p.parts = [] then ['.'] else p.root.text ++ Text.join ['/'] p.parts

/-- The path starts at a root. -/
def isAbsolute (p : Path) : Bool := p.root ≠ .relative

/-- The path `q` as seen from `p`. -/
def join (p q : Path) : Path := if q.isAbsolute then q else ⟨p.root, p.parts ++ q.parts⟩

/-- The path without its last part. -/
def parent (p : Path) : Path := { p with parts := p.parts.dropLast }

/-- The last part, empty when there is none. -/
def name (p : Path) : Text := p.parts.getLast?.getD []

/-- The path with one more part. -/
def child (p : Path) (part : Text) : Path := { p with parts := p.parts ++ [part] }

/-- The ending of a name from its last dot on. A dot at either end of the name does not count. -/
def extension (name : Text) : Text :=
  match Text.splitLast '.' name with
  | some (stem, ending) => if stem = [] ∨ ending = [] then [] else '.' :: ending
  | none => []

/-- The part that stands for the directory above. -/
def up : Text := ['.', '.']

/-- Adds a part to collapsed parts, the last one first. Going up removes a part, is kept at the
start of a relative path, and does nothing at a root. -/
def pushPart (absolute : Bool) (parts : List Text) (part : Text) : List Text :=
  if part ≠ up ∨ (absolute = false ∧ parts = []) ∨ parts.head? = some up then part :: parts
  else parts.tail

/-- The path with every step up carried out, where there is something to go up from. -/
def collapse (p : Path) : Path :=
  { p with parts := (p.parts.foldl (pushPart p.isAbsolute) []).reverse }

/-- The text of a path with every step up carried out. -/
def collapseText (t : Text) : Text := (ofText t).collapse.toText

/-- The longest common start of two lists of parts removed from both. -/
def dropCommon : List Text → List Text → List Text × List Text
  | a :: as, b :: bs => if a = b then dropCommon as bs else (a :: as, b :: bs)
  | as, bs => (as, bs)

/-- The path that leads from the directory `base` to `target`, both of them absolute. -/
def relativeTo (base target : Path) : Path :=
  let (back, forth) := dropCommon base.parts target.parts
  ⟨.relative, back.map (fun _ => up) ++ forth⟩

/-- The text of a path before its last slash, without slashes at the end unless it is all slashes.
-/
def directoryText (t : Text) : Text :=
  match Text.splitLast '/' t with
  | none => []
  | some (head, _) =>
    if head.all (· = '/') then head ++ [.char '/'] else Text.trimRight (· = '/') head

end Path
end StyleVars
