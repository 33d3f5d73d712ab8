import StyleVars.Value.Native
import StyleVars.Value.Color
import StyleVars.Numeric.Rounding

/-!
# The flat form of a value

The flat form of a value is the text by which a style sheet would write it. A list inside a list
stands between parentheses, so that it reads back as a list inside a list.
-/

namespace StyleVars

variable [ColorNames]

/-- From this alpha on a color counts as opaque. -/
def opaqueAlpha : Binary64 := .ofRatio false 999 1000

/-- The flat form of a color: a name, or hexadecimal notation, or the four channels when it is not
opaque. The alpha channel is given in hundredths. -/
def flatColor (red green blue alpha : Binary64) : Except Failure Text := do
  let r ← roundHalfUp red
  let g ← roundHalfUp green
  let b ← roundHalfUp blue
  if alpha.less opaqueAlpha then
    let hundredths ← roundHalfUp (alpha * .ofInt 100)
    let channels := [Text.ofInt r, Text.ofInt g, Text.ofInt b,
      numberText (.ofQuotient hundredths 100)]
    return "rgba(".toText ++ Text.join [.char ','] channels ++ [.char ')']
  else
    let written := Color.hex r g b
    return (ColorNames.name? written).getD written

/-- The brackets or parentheses around the items of a list. -/
def flatList (separator : Separator) (bracketed nested : Bool) (items : List Text) : Text :=
  let joined := Text.join separator.text items
  if bracketed then .char '[' :: joined ++ [.char ']']
  else if nested then .char '(' :: joined ++ [.char ')']
  else joined

/-- The entries of a map between parentheses. -/
def flatEntries (entries : Keyed Text Text) : Text :=
  .char '(' :: Text.join [','] (entries.map fun (k, v) => k ++ ": ".toText ++ v) ++ [.char ')']

mutual

/-- The flat form of a value; `nested` says that it is an item of a list. -/
def flatten (nested : Bool) : Native → Except Failure Text
  | .null => .ok "null".toText
  | .boolean b => .ok (if b then "true".toText else "false".toText)
  | .string t => .ok t
  | .number x unit => .ok (numberText x ++ unit)
  | .color r g b a => flatColor r g b a
  | .list items separator bracketed => do
    let texts ← flattenItems items
    return flatList separator bracketed nested texts
  | .map entries => do
    let texts ← flattenEntries entries
    return flatEntries (Keyed.ofList texts)
  | .unsupported typeName => .error (.unsupportedType typeName none)

/-- The flat forms of the items of a list. -/
def flattenItems : List Native → Except Failure (List Text)
  | [] => .ok []
  | v :: rest => do
    let t ← flatten true v
    let ts ← flattenItems rest
    return t :: ts

/-- The flat forms of the entries of a map, keys that have the same one included. The value of an
entry is flattened before its key. -/
def flattenEntries : List (Native × Native) → Except Failure (List (Text × Text))
  | [] => .ok []
  | (k, v) :: rest => do
    let value ← flatten false v
    let key ← flatten false k
    let more ← flattenEntries rest
    return (key, value) :: more

end

end StyleVars
