import StyleVars.Text.Basic

/-!
# White space

The white space of Unicode together with the four separators U+001C to U+001F. The zero width space,
the Mongolian vowel separator and the byte order mark do not belong to it.
-/

namespace StyleVars

/-- White space. -/
def isBlank (c : CodePoint) : Bool :=
  let n := c.toNat
  (9 ≤ n && n ≤ 13) || (28 ≤ n && n ≤ 32) || n = 0x85 || n = 0xA0 || n = 0x1680 ||
    (0x2000 ≤ n && n ≤ 0x200A) || n = 0x2028 || n = 0x2029 || n = 0x202F || n = 0x205F || n = 0x3000

namespace Text

/-- `t` without its trailing white space. -/
def stripRight (t : Text) : Text := trimRight isBlank t

/-- `t` without the white space at both ends. -/
def strip (t : Text) : Text := trimEnds isBlank t

end Text
end StyleVars
