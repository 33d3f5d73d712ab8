import StyleVars.Text.Basic

/-!
# Positions

A position is an offset together with its line and its column in that line, both counted from one.
-/

namespace StyleVars

/-- A place in a text. -/
structure Position where
  line : Nat
  column : Nat
  cursor : Nat
  deriving DecidableEq

namespace Position

/-- The place before the first character. -/
def start : Position := ⟨1, 1, 0⟩

/-- The place after one more character. -/
def next (p : Position) (c : CodePoint) : Position :=
  if c = '\n' then ⟨p.line + 1, 1, p.cursor + 1⟩ else ⟨p.line, p.column + 1, p.cursor + 1⟩

/-- The place after at most `count` characters of a text. -/
def after (p : Position) (count : Nat) : Text → Position
  | [] => p
  | c :: rest =>
    match count with
    | 0 => p
    | count + 1 => (p.next c).after count rest

/-- The place at an offset. -/
def ofOffset (text : Text) (cursor : Nat) : Position := start.after cursor text

end Position
end StyleVars
