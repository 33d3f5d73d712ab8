import StyleVars.Text.Basic
import StyleVars.Numeric.Binary64

/-!
# Native values

The values that the compiler hands to the functions a style sheet calls.
-/

namespace StyleVars

/-- What stands between the items of a list. -/
inductive Separator
  | comma
  | space
  deriving DecidableEq

namespace Separator

/-- The separator as it is written in a style sheet. -/
def text : Separator → Text
  | comma => [',']
  | space => [' ']

end Separator

/-- A value of the compiler. The last case stands for a value of a type that no variable of a style
sheet is expected to have; only the name of the type is known. -/
inductive Native
  | null
  | boolean (value : Bool)
  | string (value : Text)
  | number (value : Binary64) (unit : Text)
  | color (red green blue alpha : Binary64)
  | list (items : List Native) (separator : Separator) (bracketed : Bool)
  | map (entries : List (Native × Native))
  | unsupported (typeName : Text)
  deriving Inhabited

namespace Native

/-- The types whose values are told apart by what they hold rather than by where they are. -/
def comparedByContent (typeName : Text) : Bool :=
  typeName = "int".toText || typeName = "float".toText || typeName = "bytes".toText ||
    typeName = "tuple".toText || typeName = "SassError".toText

mutual

/-- Two values are the same key of a map. Numbers are compared by value and unit, lists whatever
their separators, maps whatever the order of their entries. -/
def sameKey : Native → Native → Bool
  | .null, .null => true
  | .boolean a, .boolean b => a = b
  | .string a, .string b => a = b
  | .number a u, .number b v => a.sameValue b && u = v
  | .color r g b a, .color r' g' b' a' =>
    r.sameValue r' && g.sameValue g' && b.sameValue b' && a.sameValue a'
  | .list xs _ bracketed, .list ys _ bracketed' => bracketed = bracketed' && sameItems xs ys
  | .map es, .map fs => es.length = fs.length && sameEntries es fs
  | .unsupported t, .unsupported t' => t = t' && comparedByContent t
  | _, _ => false

/-- The items are the same one by one. -/
def sameItems : List Native → List Native → Bool
  | [], [] => true
  | x :: xs, y :: ys => sameKey x y && sameItems xs ys
  | _, _ => false

/-- Every entry of the first list has an equal one in the second. -/
def sameEntries : List (Native × Native) → List (Native × Native) → Bool
  | [], _ => true
  | (k, v) :: es, fs => fs.any (fun (l, w) => sameKey k l && sameKey v w) && sameEntries es fs

end

/-- An entry added to a map: a value for a known key takes the place of the old one. -/
def putEntry (key value : Native) : List (Native × Native) → List (Native × Native)
  | [] => [(key, value)]
  | (k, v) :: rest =>
    if sameKey k key then (k, value) :: rest else (k, v) :: putEntry key value rest

/-- The map with the given entries, added one after the other. -/
def mapOf (entries : List (Native × Native)) : Native :=
  .map (entries.foldl (fun acc (k, v) => putEntry k v acc) [])

end Native
end StyleVars
