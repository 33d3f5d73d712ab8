import StyleVars.Text.Blank
import StyleVars.Text.Digit
import StyleVars.Numeric.Binary64

/-!
# Reading numbers

Decimal notation with an optional fraction and exponent, and integers as a person may type them.
-/

namespace StyleVars

/-- The value of a nonempty run of ASCII digits. -/
def natOfDigits? (t : Text) : Option Nat :=
  if t ≠ [] ∧ t.all CodePoint.isDigit then some (t.foldl (fun n c => n * 10 + (c.toNat - 48)) 0)
  else none

/-- A sign, when there is one, and the text after it. -/
def takeSign : Text → Bool × Text
  | '-' :: r => (true, r)
  | '+' :: r => (false, r)
  | t => (false, t)

/-- An exponent: an optional sign and digits. -/
def exponentOf? (t : Text) : Option Int :=
  let (negative, digits) := takeSign t
  (natOfDigits? digits).map fun n => if negative then -(n : Int) else n

/-- Unsigned decimal notation, rounded to the nearest number. -/
def magnitudeOf? (negative : Bool) (t : Text) : Option Binary64 :=
  let (mantissa, exponent?) : Text × Option Int :=
    match t.span fun c => c ≠ .char 'e' ∧ c ≠ .char 'E' with
    | (m, []) => (m, some 0)
    | (m, _ :: e) => (m, exponentOf? e)
  let (whole, fraction) :=
    match Text.splitFirst '.' mantissa with
    | some parts => parts
    | none => (mantissa, [])
  match exponent?, natOfDigits? (whole ++ fraction) with
  | some e, some m => some (.ofDecimal negative m (e - fraction.length))
  | _, _ => none

/-- A number in decimal notation, or one of the words `nan`, `inf` and `infinity`. -/
def Binary64.ofText? (t : Text) : Option Binary64 :=
  let (negative, size) := takeSign t
  let word := size.map CodePoint.toLower
  if word = "nan".toText then some .nan
  else if word = "inf".toText ∨ word = "infinity".toText then some (.infinite negative)
  else magnitudeOf? negative size

/-- The value of digits of any script with single underscores between them. -/
def natOfTyped? (value : Nat) : Text → Option Nat
  | [] => some value
  | '_' :: c :: r => (digitValue? c).bind fun d => natOfTyped? (value * 10 + d) r
  | c :: r => (digitValue? c).bind fun d => natOfTyped? (value * 10 + d) r

/-- How many digits an integer may be written with. -/
def maxDigits : Nat := 4300

/-- White space that may stand around a typed number: the separators U+001C to U+001F may not. -/
def isTypedBlank (c : CodePoint) : Bool := isBlank c && !(28 ≤ c.toNat && c.toNat ≤ 31)

/-- An integer as a person may type it: white space around it, a sign, digits of any script, single
underscores between digits. It may not have too many digits, zeros before the others included. -/
def intOfTyped? (t : Text) : Option Int :=
  let (negative, digits) := takeSign (Text.trimEnds isTypedBlank t)
  match digits with
  | [] => none
  | '_' :: _ => none
  | _ =>
    if maxDigits < (digits.filter (· ≠ .char '_')).length then none
    else (natOfTyped? 0 digits).map fun n => if negative then -(n : Int) else n

end StyleVars
