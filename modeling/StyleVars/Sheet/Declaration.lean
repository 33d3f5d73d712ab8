import StyleVars.Sheet.Position
import StyleVars.Sheet.Statement

/-!
# Declarations

A declaration gives a variable a value: `$name: expression`, with flags at its end. Inside a block
it counts only when it is flagged as global and the block is always run.
-/

namespace StyleVars

/-- The flags of a declaration: whether it only sets a variable that has no value yet, and whether
it sets the variable of the whole style sheet. -/
structure Flags where
  default : Bool
  isGlobal : Bool
  deriving DecidableEq

/-- A declaration of a variable; `name` starts with the dollar sign. -/
structure Declaration where
  name : Text
  expression : Text
  flags : Flags
  position : Position
  deriving DecidableEq

/-- An expression without the flag at its end, and the flag as it is written. -/
def dropFlag? (flag expression : Text) : Option Text :=
  let size := expression.length - flag.length
  if flag.length ≤ expression.length ∧ (expression.drop size).map CodePoint.toLower = flag then
    some (Text.stripRight (expression.take size))
  else none

/-- Drops the flags at the end of an expression, at most `count` of them. -/
def dropFlags (count : Nat) (flags : Flags) (expression : Text) : Text × Flags :=
  match count with
  | 0 => (expression, flags)
  | count + 1 =>
    match dropFlag? "!default".toText expression with
    | some shorter => dropFlags count { flags with default := true } shorter
    | none =>
      match dropFlag? "!global".toText expression with
      | some shorter => dropFlags count { flags with isGlobal := true } shorter
      | none => (expression, flags)

/-- An expression without the flags at its end, and these flags. No expression has more flags than
characters. -/
def readFlags (expression : Text) : Text × Flags :=
  let stripped := Text.strip expression
  dropFlags stripped.length ⟨false, false⟩ stripped

/-- The name of the variable that a statement declares and the text after the colon. -/
def declared? : Text → Option (Text × Text)
  | '$' :: rest =>
    let name := rest.takeWhile isNameChar
    if (name.head?.map isNameStart).getD false then
      match (rest.dropWhile isNameChar).dropWhile isBlank with
      | ':' :: value => some ('$' :: name, value)
      | _ => none
    else none
  | _ => none

/-- The declaration that a statement of the given text makes. -/
def Statement.declaration? (text : Text) (s : Statement) : Option Declaration :=
  (declared? s.text).bind fun (name, value) =>
    let (expression, flags) := readFlags value
    if 0 < s.depth ∧ ¬(flags.isGlobal ∧ s.unconditional) then none
    else some ⟨name, expression, flags, .ofOffset text s.start⟩

/-- The declarations of a style sheet in order. -/
def declarations (text : Text) : List Declaration :=
  (statements text).filterMap (Statement.declaration? text)

end StyleVars
