import StyleVars.Text.Basic
import StyleVars.Numeric.Binary64

/-!
# The shortest decimal that reads back

A number is written with the fewest decimal digits that read back as the same number; of several
such decimals the nearest is taken, and of two equally near ones the one with the even last digit.
-/

namespace StyleVars

/-- The decimal `digits * 10 ^ exponent`. -/
structure Decimal where
  digits : Nat
  exponent : Int
  deriving DecidableEq

namespace Decimal

/-- The rank nearest to a decimal. -/
def nearestRank (d : Decimal) : Nat :=
  if 0 ≤ d.exponent then
    Binary64.nearestRank (d.digits * Binary64.powerOfTen d.exponent.toNat * Binary64.one) 1
  else Binary64.nearestRank (d.digits * Binary64.one) (Binary64.powerOfTen (-d.exponent).toNat)

/-- The power of ten of the leading digit of a positive magnitude. No magnitude is below 10⁻³²⁴. -/
def leadingExponent (units : Nat) : Int :=
  ((Nat.toDigits 10 (units * Binary64.powerOfTen 324 / Binary64.one)).length : Int) - 325

/-- Of the two decimals with `count` digits next to the magnitude of a rank, the nearer of those
that read back. -/
def ofDigitCount? (rank count : Nat) : Option Decimal :=
  let units := Binary64.unitsOfRank rank
  let exponent := leadingExponent units - count + 1
  let num := units * Binary64.powerOfTen (-exponent).toNat
  let den := Binary64.one * Binary64.powerOfTen exponent.toNat
  let below : Decimal := ⟨num / den, exponent⟩
  let above : Decimal := ⟨num / den + 1, exponent⟩
  let rest := 2 * (num % den)
  match decide (below.nearestRank = rank), decide (above.nearestRank = rank) with
  | true, true =>
    if rest < den ∨ (rest = den ∧ below.digits % 2 = 0) then some below else some above
  | true, false => some below
  | false, true => some above
  | false, false => none

/-- The shortest decimal that reads back as the magnitude of a rank; seventeen digits always do. -/
def shortest (rank : Nat) : Decimal :=
  ((List.range 17).findSome? fun n => ofDigitCount? rank (n + 1)).getD ⟨0, 0⟩

end Decimal

/-- The choices left open by the digits: the exponents of the leading digit that are written without
an exponent part, the least number of digits of an exponent, and the words for the other values. -/
structure NumberStyle where
  leastPositional : Int
  leastScientific : Int
  exponentWidth : Nat
  nanWord : Text
  infinityWord : Text

namespace NumberStyle

/-- A nonzero magnitude: its digits, then the power of ten of the leading one. -/
def magnitude (style : NumberStyle) (digits : Text) (leading : Int) : Text :=
  if style.leastPositional ≤ leading ∧ leading < style.leastScientific then
    if leading < 0 then "0.".toText ++ List.replicate ((-leading).toNat - 1) (.char '0') ++ digits
    else
      let whole := leading.toNat + 1
      let fraction := digits.drop whole
      digits.take whole ++ List.replicate (whole - digits.length) (.char '0') ++ [.char '.'] ++
        (if fraction.isEmpty then [.char '0'] else fraction)
  else
    let fraction := digits.drop 1
    let power := Text.ofNat leading.natAbs
    digits.take 1 ++ (if fraction.isEmpty then [] else .char '.' :: fraction) ++ [.char 'e'] ++
      [if leading < 0 then .char '-' else .char '+'] ++
      List.replicate (style.exponentWidth - power.length) (.char '0') ++ power

/-- The text of a number. -/
def render (style : NumberStyle) : Binary64 → Text
  | .nan => style.nanWord
  | .infinite negative => (if negative then [.char '-'] else []) ++ style.infinityWord
  | .finite negative rank =>
    (if negative then [.char '-'] else []) ++
      if rank.val = 0 then "0.0".toText
      else
        let d := Decimal.shortest rank
        let digits := Text.ofNat d.digits
        let leading := d.exponent + digits.length - 1
        style.magnitude (Text.trimRight (· = '0') digits) leading

end NumberStyle
end StyleVars
