import StyleVars.Text.CodePoint
import StyleVars.Text.WordRanges

/-!
# Word characters

A word character is a letter or a numeral of any script, or an underscore.
-/

namespace StyleVars

/-- A character lies in one of the given ranges of code points. -/
def inRanges (ranges : List (Nat × Nat)) (c : CodePoint) : Bool :=
  ranges.any fun (first, last) => first ≤ c.toNat && c.toNat ≤ last

/-- A letter or numeral of any script, or an underscore. -/
def isWord (c : CodePoint) : Bool :=
  if c.toNat < 128 then c.isAlphanum || c = '_' else inRanges wordRanges c

/-- A character that may continue a name: a word character or a hyphen. -/
def isNameChar (c : CodePoint) : Bool := isWord c || c = '-'

/-- A character that may start a name: an ASCII letter, an underscore or a hyphen. -/
def isNameStart (c : CodePoint) : Bool := c.isAlpha || c = '_' || c = '-'

end StyleVars
