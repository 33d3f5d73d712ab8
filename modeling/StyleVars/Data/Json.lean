import StyleVars.Data.Basic

/-!
# Data as JSON text

Mappings and lists are written over several lines, two blanks further in for each level, and
everything but printable ASCII is escaped; or all of a value is written in one line.
-/

namespace StyleVars

namespace Text

/-- The escape of a code unit of sixteen bits. -/
def unitEscape (n : Nat) : Text := '\\' :: 'u' :: hex 4 n

/-- The escape that a code point has in every JSON string, if it has one. -/
def jsonEscape? (c : CodePoint) : Option Text :=
  let n := c.toNat
  if c = '"' then some "\\\"".toText
  else if c = '\\' then some "\\\\".toText
  else if c = '\n' then some "\\n".toText
  else if c = '\r' then some "\\r".toText
  else if c = '\t' then some "\\t".toText
  else if n = 8 then some "\\b".toText
  else if n = 12 then some "\\f".toText
  else if n < 32 then some (unitEscape n)
  else none

/-- A code point in printable ASCII. Past sixteen bits it is escaped as a pair of surrogates. -/
def jsonUnits (c : CodePoint) : Text :=
  let n := c.toNat
  if n ≤ 126 then [c]
  else if n < 0x10000 then unitEscape n
  else unitEscape (0xD800 + (n - 0x10000) / 0x400) ++ unitEscape (0xDC00 + (n - 0x10000) % 0x400)

/-- A JSON string of printable ASCII. -/
def jsonString (t : Text) : Text :=
  .char '"' :: t.flatMap (fun c => (jsonEscape? c).getD (jsonUnits c)) ++ [.char '"']

/-- A JSON string in which nothing is escaped that need not be. -/
def plainString (t : Text) : Text :=
  .char '"' :: t.flatMap (fun c => (jsonEscape? c).getD [c]) ++ [.char '"']

end Text

namespace Data

/-- Numbers in JSON text. -/
def jsonNumbers : NumberStyle :=
  { Number.style with nanWord := "NaN".toText, infinityWord := "Infinity".toText }

/-- The name of a key in JSON text, where all keys are strings. -/
def Key.jsonName : Key → Text
  | null => "null".toText
  | bool b => if b then "true".toText else "false".toText
  | int n => Text.ofInt n
  | real x => jsonNumbers.render x
  | text t => t

/-- A key in JSON text. -/
def Key.json (k : Key) : Text := Text.jsonString k.jsonName

/-- A line break and the blanks of a level. -/
def newLine (level : Nat) : Text := '\n' :: List.replicate (2 * level) ' '

mutual

/-- A value as JSON text, the lines after its first one being at the given level. -/
def jsonAt (level : Nat) : Data → Text
  | .null => "null".toText
  | .bool b => if b then "true".toText else "false".toText
  | .int n => Text.ofInt n
  | .real x => jsonNumbers.render x
  | .text t => Text.jsonString t
  | .list [] => "[]".toText
  | .list (d :: rest) =>
    .char '[' :: newLine (level + 1) ++ jsonAt (level + 1) d ++ jsonItems (level + 1) rest ++
      newLine level ++ [.char ']']
  | .mapping [] => "\x7b\x7d".toText
  | .mapping ((k, d) :: rest) =>
    .char '\x7b' :: newLine (level + 1) ++ k.json ++ ": ".toText ++ jsonAt (level + 1) d ++
      jsonEntries (level + 1) rest ++ newLine level ++ [.char '\x7d']

/-- The items of a list after its first one. -/
def jsonItems (level : Nat) : List Data → Text
  | [] => []
  | d :: rest => .char ',' :: newLine level ++ jsonAt level d ++ jsonItems level rest

/-- The entries of a mapping after its first one. -/
def jsonEntries (level : Nat) : List (Key × Data) → Text
  | [] => []
  | (k, d) :: rest =>
    .char ',' :: newLine level ++ k.json ++ ": ".toText ++ jsonAt level d ++
      jsonEntries level rest

end

/-- A value as JSON text. -/
def json (d : Data) : Text := d.jsonAt 0

mutual

/-- A value as JSON text in one line without blanks; `string` writes texts. -/
def jsonLine (string : Text → Text) : Data → Text
  | .null => "null".toText
  | .bool b => if b then "true".toText else "false".toText
  | .int n => Text.ofInt n
  | .real x => jsonNumbers.render x
  | .text t => string t
  | .list items => .char '[' :: Text.join [.char ','] (jsonLineItems string items) ++ [.char ']']
  | .mapping entries =>
    .char '\x7b' :: Text.join [.char ','] (jsonLineEntries string entries) ++ [.char '\x7d']

/-- The items of a list in one line each. -/
def jsonLineItems (string : Text → Text) : List Data → List Text
  | [] => []
  | d :: rest => jsonLine string d :: jsonLineItems string rest

/-- The entries of a mapping in one line each. -/
def jsonLineEntries (string : Text → Text) : List (Key × Data) → List Text
  | [] => []
  | (k, d) :: rest =>
    (string k.jsonName ++ .char ':' :: jsonLine string d) :: jsonLineEntries string rest

end

end Data
end StyleVars
