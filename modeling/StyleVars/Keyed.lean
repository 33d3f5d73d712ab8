/-!
# Keyed lists

A finite map that remembers the order in which its keys were first put into it. Putting a key again
replaces the value and leaves the key where it is.
-/

namespace StyleVars

/-- Entries in the order of their first insertion. -/
abbrev Keyed (κ α : Type) := List (κ × α)

namespace Keyed

variable {κ α : Type} [DecidableEq κ]

/-- The value of a key. -/
def get? (key : κ) : Keyed κ α → Option α
  | [] => none
  | (k, a) :: rest => if k = key then some a else get? key rest

/-- The keys in order. -/
def keys (entries : Keyed κ α) : List κ := entries.map Prod.fst

/-- A value for a key: in the place of the key when it is known, else at the end. -/
def put (key : κ) (value : α) : Keyed κ α → Keyed κ α
  | [] => [(key, value)]
  | (k, a) :: rest => if k = key then (k, value) :: rest else (k, a) :: put key value rest

/-- All entries put one after the other. -/
def putAll (entries : Keyed κ α) (more : List (κ × α)) : Keyed κ α :=
  more.foldl (fun acc (k, a) => put k a acc) entries

/-- The entries put into the empty list one after the other. -/
def ofList (more : List (κ × α)) : Keyed κ α := putAll [] more

/-- An element appended unless it is there already. -/
def insertNew {α : Type} [DecidableEq α] (xs : List α) (x : α) : List α :=
  if x ∈ xs then xs else xs ++ [x]

end Keyed
end StyleVars
