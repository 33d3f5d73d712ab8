import StyleVars.Text.Basic

/-!
# Pairs of surrogates

A character past U+FFFF is a pair of code units of sixteen bits, of a high surrogate and a low one.
-/

namespace StyleVars.Surrogate

/-- A code unit is the first one of a pair. -/
def isHigh (n : Nat) : Bool := 0xD800 ≤ n && n < 0xDC00

/-- A code unit is the second one of a pair. -/
def isLow (n : Nat) : Bool := 0xDC00 ≤ n && n < 0xE000

/-- The character of a pair. -/
def join (high low : Nat) : CodePoint := .ofNat (0x10000 + (high - 0xD800) * 0x400 + (low - 0xDC00))

/-- The text of code units. -/
def textOfUnits : List Nat → Text
  | [] => []
  | [n] => [.ofNat n]
  | n :: m :: rest =>
    if isHigh n && isLow m then join n m :: textOfUnits rest
    else .ofNat n :: textOfUnits (m :: rest)

end StyleVars.Surrogate
