import StyleVars.Value.Flat

/-!
# The structured form of a value

A structured value is a tree of plain values, each with the type it had for the compiler. It has two
renderings: with the types, and plain.
-/

namespace StyleVars

/-- The types of the values that a variable can have. -/
inductive Kind
  | boolean
  | string
  | number
  | color
  | null
  | list
  | map
  deriving DecidableEq

namespace Kind

/-- The name of a type. -/
def name : Kind → Text
  | boolean => "SassBoolean".toText
  | string => "SassString".toText
  | number => "SassNumber".toText
  | color => "SassColor".toText
  | null => "SassNull".toText
  | list => "SassList".toText
  | map => "SassMap".toText

end Kind

/-- The type of a native value. -/
def Native.kind : Native → Except Failure Kind
  | .null => .ok .null
  | .boolean _ => .ok .boolean
  | .string _ => .ok .string
  | .number .. => .ok .number
  | .color .. => .ok .color
  | .list .. => .ok .list
  | .map _ => .ok .map
  | .unsupported typeName => .error (.unsupportedType typeName none)

/-- A value as a tree of plain values. In its last form it has been replaced by a text; `tag` is the
name of the type that is given for it. -/
inductive Structured
  | null
  | boolean (value : Bool)
  | string (value : Text)
  | number (value : Number) (unit : Text)
  | color (red green blue : Int) (alpha : Number) (hex : Text)
  | list (items : List Structured) (separator : Separator)
  | map (entries : List (Text × Structured))
  | flat (tag text : Text)
  deriving Inhabited

namespace Structured

/-- The name of the type that a value carries by its form; a flattened value carries none. -/
def ownTag : Structured → Text
  | null => Kind.null.name
  | boolean _ => Kind.boolean.name
  | string _ => Kind.string.name
  | number .. => Kind.number.name
  | color .. => Kind.color.name
  | list .. => Kind.list.name
  | map _ => Kind.map.name
  | flat .. => []

/-- The channels of a color and its hexadecimal notation. -/
def colorData (red green blue : Int) (alpha : Number) (hex : Text) : Data :=
  .ofFields [("r".toText, .int red), ("g".toText, .int green), ("b".toText, .int blue),
    ("a".toText, .ofNumber alpha), ("hex".toText, .text hex)]

/-- A type, a value and what else the rendering of that type tells. -/
def tagged (tag : Text) (value : Data) (more : List (Text × Data)) : List (Text × Data) :=
  ("type".toText, .text tag) :: ("value".toText, value) :: more

mutual

/-- The entries of the rendering of a value with its type. -/
def fields : Structured → List (Text × Data)
  | null => tagged Kind.null.name .null []
  | boolean b => tagged Kind.boolean.name (.bool b) []
  | string t => tagged Kind.string.name (.text t) []
  | number n unit => tagged Kind.number.name (.ofNumber n) [("unit".toText, .text unit)]
  | color r g b a hex => tagged Kind.color.name (colorData r g b a hex) []
  | list items separator =>
    tagged Kind.list.name (.list (itemsData items)) [("separator".toText, .text separator.text)]
  | map entries => tagged Kind.map.name (.ofFields (entriesData entries)) []
  | flat tag text => tagged tag (.text text) []

/-- The items of a list, each with its type. -/
def itemsData : List Structured → List Data
  | [] => []
  | x :: rest => .ofFields (fields x) :: itemsData rest

/-- The entries of a map, each value with its type. -/
def entriesData : List (Text × Structured) → List (Text × Data)
  | [] => []
  | (k, x) :: rest => (k, .ofFields (fields x)) :: entriesData rest

end

/-- The rendering of a value with its type. -/
def toData (x : Structured) : Data := .ofFields x.fields

mutual

/-- The rendering of a value without types. -/
def bare : Structured → Data
  | null => .null
  | boolean b => .bool b
  | string t => .text t
  | number n _ => .ofNumber n
  | color r g b a hex => colorData r g b a hex
  | list items _ => .list (bareItems items)
  | map entries => .ofFields (bareEntries entries)
  | flat _ text => .text text

/-- The items of a list without types. -/
def bareItems : List Structured → List Data
  | [] => []
  | x :: rest => bare x :: bareItems rest

/-- The entries of a map without types. -/
def bareEntries : List (Text × Structured) → List (Text × Data)
  | [] => []
  | (k, x) :: rest => (k, bare x) :: bareEntries rest

end

/-- The keys of a map. -/
def keys? : Structured → Option (List Text)
  | map entries => some (entries.map Prod.fst)
  | _ => none

end Structured

/-- The structured form of a color. -/
def structuredColor (red green blue alpha : Binary64) : Except Failure Structured := do
  let r ← roundHalfUp red
  let g ← roundHalfUp green
  let b ← roundHalfUp blue
  return .color r g b (.ofBinary64 alpha) (Color.hex r g b)

variable [ColorNames]

mutual

/-- The structured form of a value. The keys of a map are the flat forms of its keys. -/
def Native.structured : Native → Except Failure Structured
  | .null => .ok .null
  | .boolean b => .ok (.boolean b)
  | .string t => .ok (.string t)
  | .number x unit => .ok (.number (.ofBinary64 x) unit)
  | .color r g b a => structuredColor r g b a
  | .list items separator _ => do
    let xs ← structuredItems items
    return .list xs separator
  | .map entries => do
    let xs ← structuredEntries entries
    return .map (Keyed.ofList xs)
  | .unsupported typeName => .error (.unsupportedType typeName none)

/-- The structured forms of the items of a list. -/
def structuredItems : List Native → Except Failure (List Structured)
  | [] => .ok []
  | v :: rest => do
    let x ← v.structured
    let xs ← structuredItems rest
    return x :: xs

/-- The entries of a map by the flat forms of their keys, keys that have the same one included. The
value of an entry is taken before its key. -/
def structuredEntries : List (Native × Native) → Except Failure (List (Text × Structured))
  | [] => .ok []
  | (k, v) :: rest => do
    let x ← v.structured
    let key ← flatten false k
    let xs ← structuredEntries rest
    return (key, x) :: xs

end

end StyleVars
