import StyleVars.Data.Key
import StyleVars.Keyed

/-!
# Data

The values of documents: payloads handed to callers, settings read from a file, options of plugins.
-/

namespace StyleVars

/-- A value of a document; the entries of a mapping stand in the order of their insertion. -/
inductive Data
  | null
  | bool (value : Bool)
  | int (value : Int)
  | real (value : Binary64)
  | text (value : Text)
  | list (items : List Data)
  | mapping (entries : List (Data.Key × Data))
  deriving Inhabited

namespace Data

/-- The entries of a mapping in the order of their insertion. -/
abbrev Entries := List (Key × Data)

/-- A key as a value. -/
def Key.toData : Key → Data
  | null => .null
  | bool b => .bool b
  | int n => .int n
  | real x => .real x
  | text t => .text t

/-- A number. -/
def ofNumber : Number → Data
  | .int n => .int n
  | .real x => .real x

/-- A natural number. -/
def ofNat (n : Nat) : Data := .int n

/-- Entries whose keys are texts. -/
def named (fields : List (Text × Data)) : Entries := fields.map fun (name, d) => (.text name, d)

/-- A mapping whose keys are texts. -/
def ofFields (fields : List (Text × Data)) : Data := .mapping (named fields)

/-- The value among some entries that has the given name. -/
def field? (name : Text) (entries : Entries) : Option Data := Keyed.get? (.text name) entries

/-- The value that a mapping has under a name. -/
def get? (name : Text) : Data → Option Data
  | .mapping entries => field? name entries
  | _ => none

/-- An entry put among others: a key that is there already stays as it is and gets the new value.
-/
def insert (entries : Entries) (key : Key) (value : Data) : Entries :=
  match entries with
  | [] => [(key, value)]
  | (k, d) :: rest =>
    if k.same key then (k, value) :: rest else (k, d) :: insert rest key value

/-- The entries put into an empty mapping one after the other. -/
def collect (entries : Entries) : Entries :=
  entries.foldl (fun found (key, value) => insert found key value) []

mutual

/-- The value in which the mappings have every key once: the last value in the first place. -/
def merged : Data → Data
  | .list items => .list (mergedItems items)
  | .mapping entries => .mapping (collect (mergedEntries entries))
  | d => d

/-- The items of a list, each of them merged. -/
def mergedItems : List Data → List Data
  | [] => []
  | d :: rest => merged d :: mergedItems rest

/-- The entries of a mapping with each value merged. -/
def mergedEntries : List (Key × Data) → List (Key × Data)
  | [] => []
  | (key, d) :: rest => (key, merged d) :: mergedEntries rest

end

/-- Nothing, no, zero or empty. -/
def isEmpty : Data → Bool
  | .null => true
  | .bool b => !b
  | .int n => n = 0
  | .real x => x.sameValue (.ofRank false 0)
  | .text t => t = []
  | .list items => items.isEmpty
  | .mapping entries => entries.isEmpty

mutual

/-- All numbers in a value are finite. -/
def allFinite : Data → Bool
  | .real x => x.isFinite
  | .list items => allFiniteItems items
  | .mapping entries => allFiniteEntries entries
  | _ => true

/-- All numbers in the items of a list are finite. -/
def allFiniteItems : List Data → Bool
  | [] => true
  | d :: rest => allFinite d && allFiniteItems rest

/-- All numbers in the values of a mapping are finite. -/
def allFiniteEntries : List (Key × Data) → Bool
  | [] => true
  | (_, d) :: rest => allFinite d && allFiniteEntries rest

end

/-- The name of the type of a value, as messages give it. -/
def typeName : Data → Text
  | .null => "NoneType".toText
  | .bool _ => "bool".toText
  | .int _ => "int".toText
  | .real _ => "float".toText
  | .text _ => "str".toText
  | .list _ => "list".toText
  | .mapping _ => "dict".toText

end Data
end StyleVars
