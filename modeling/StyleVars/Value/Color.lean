import StyleVars.Text.Basic

/-!
# Colors

Colors in hexadecimal notation. A channel outside 0 to 255 is moved to the nearest end. Some colors
have a name as well; which ones is not said here.
-/

namespace StyleVars

/-- The names of colors. -/
class ColorNames where
  /-- The name of a color in hexadecimal notation, when it has one. -/
  name? : Text → Option Text

namespace Color

/-- A channel on two hexadecimal digits. -/
def channelHex (channel : Int) : Text := Text.hex 2 (max 0 (min 255 channel)).toNat

/-- Red, green and blue in hexadecimal notation. -/
def hex (red green blue : Int) : Text :=
  .char '#' :: channelHex red ++ channelHex green ++ channelHex blue

end Color
end StyleVars
