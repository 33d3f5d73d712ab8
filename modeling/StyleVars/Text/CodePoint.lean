/-!
# Code points

A code point is a character or a surrogate. Surrogates are the code units of sixteen bits that make
up a character past U+FFFF in pairs; one that stands alone is no character, but a document may
escape one.
-/

namespace StyleVars

/-- A character, or the surrogate U+D800 + n. -/
inductive CodePoint
  | char (c : Char)
  | surrogate (n : Fin 0x800)
  deriving DecidableEq, Inhabited

namespace CodePoint

instance : Coe Char CodePoint := ⟨char⟩

/-- The number of a code point. -/
def toNat : CodePoint → Nat
  | char c => c.toNat
  | surrogate n => 0xD800 + n.val

/-- The code point of a number. Numbers past the last code point give the first one. -/
def ofNat (n : Nat) : CodePoint :=
  if h : 0xD800 ≤ n ∧ n < 0xE000 then surrogate ⟨n - 0xD800, by omega⟩ else char (.ofNat n)

/-- The code point is no character. -/
def isSurrogate : CodePoint → Bool
  | char _ => false
  | surrogate _ => true

/-- The character of a code point, if it is one. -/
def char? : CodePoint → Option Char
  | char c => some c
  | surrogate _ => none

/-- An ASCII digit. -/
def isDigit (c : CodePoint) : Bool := c.char?.any Char.isDigit

/-- An ASCII letter. -/
def isAlpha (c : CodePoint) : Bool := c.char?.any Char.isAlpha

/-- An ASCII letter or digit. -/
def isAlphanum (c : CodePoint) : Bool := c.char?.any Char.isAlphanum

/-- An ASCII letter in lower case, and any other code point as it is. -/
def toLower : CodePoint → CodePoint
  | char c => char c.toLower
  | surrogate n => surrogate n

end CodePoint
end StyleVars
