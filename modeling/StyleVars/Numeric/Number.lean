import StyleVars.Numeric.Shortest

/-!
# Plain numbers

A number is shown as an integer whenever it is one, so that a length of ten pixels is `10px` and not
`10.0px`.
-/

namespace StyleVars

/-- An integer, or a number that is not written as one. -/
inductive Number
  | int (value : Int)
  | real (value : Binary64)
  deriving DecidableEq

namespace Number

/-- Reals have an exponent part from 10¹⁶ on and below 10⁻⁴, its exponent on at least two digits. -/
def style : NumberStyle := ⟨-4, 16, 2, "nan".toText, "inf".toText⟩

/-- An integer for an integral number, else the number itself. -/
def ofBinary64 (x : Binary64) : Number :=
  match x.toInt? with
  | some n => .int n
  | none => .real x

/-- The text of a number. -/
def render : Number → Text
  | .int n => Text.ofInt n
  | .real x => style.render x

end Number

/-- The text of a number, without a fraction part when it is integral. -/
def numberText (x : Binary64) : Text := (Number.ofBinary64 x).render

end StyleVars
