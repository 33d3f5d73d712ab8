import StyleVars.Data.Basic
import StyleVars.Text.Quoted

/-!
# Data in messages

How a message shows a value: texts between quotes, lists between brackets, mappings between braces.
-/

namespace StyleVars.Data

/-- The words for the two truth values. -/
def boolWord (b : Bool) : Text := if b then "True".toText else "False".toText

/-- A key as a message shows it. -/
def Key.shown : Key → Text
  | null => "None".toText
  | bool b => boolWord b
  | int n => Text.ofInt n
  | real x => Number.style.render x
  | text t => Text.quoted t

/-- A key as a text: a text is itself, anything else as a message shows it. -/
def Key.toText : Key → Text
  | text t => t
  | key => key.shown

mutual

/-- A value as a message shows it. -/
def shown : Data → Text
  | .null => "None".toText
  | .bool b => boolWord b
  | .int n => Text.ofInt n
  | .real x => Number.style.render x
  | .text t => Text.quoted t
  | .list items => .char '[' :: shownItems items ++ [.char ']']
  | .mapping entries => .char '\x7b' :: shownEntries entries ++ [.char '\x7d']

/-- The items of a list, a comma and a blank between neighbours. -/
def shownItems : List Data → Text
  | [] => []
  | [d] => shown d
  | d :: e :: rest => shown d ++ ", ".toText ++ shownItems (e :: rest)

/-- The entries of a mapping, a comma and a blank between neighbours. -/
def shownEntries : List (Key × Data) → Text
  | [] => []
  | [(k, d)] => k.shown ++ ": ".toText ++ shown d
  | (k, d) :: e :: rest =>
    k.shown ++ ": ".toText ++ shown d ++ ", ".toText ++ shownEntries (e :: rest)

end

/-- A value as a text: a text is itself, anything else as a message shows it. -/
def toText : Data → Text
  | .text t => t
  | d => shown d

end StyleVars.Data
