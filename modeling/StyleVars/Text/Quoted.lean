import StyleVars.Text.Basic
import StyleVars.Text.Printable

/-!
# Quoted text in messages

A text is shown between single quotes, or between double quotes when it holds a single quote and no
double one. The quote, the backslash and what does not print are escaped.
-/

namespace StyleVars.Text

/-- One code point between the given quotes. -/
def quotedChar (quote c : CodePoint) : Text :=
  if c = quote ∨ c = '\\' then ['\\', c]
  else if c = '\n' then "\\n".toText
  else if c = '\r' then "\\r".toText
  else if c = '\t' then "\\t".toText
  else if isPrintable c then [c]
  else
    let n := c.toNat
    if n < 0x100 then '\\' :: 'x' :: hex 2 n
    else if n < 0x10000 then '\\' :: 'u' :: hex 4 n
    else '\\' :: 'U' :: hex 8 n

/-- A text between quotes. -/
def quoted (t : Text) : Text :=
  let quote : CodePoint := if t.contains '\x27' && !t.contains '"' then '"' else '\x27'
  quote :: t.flatMap (quotedChar quote) ++ [quote]

end StyleVars.Text
