import StyleVars.Data.Basic

/-!
# Levels

The values in a value, sorted by how many lists and mappings they stand in. Within a level they
stand in the order of the document.
-/

namespace StyleVars.Data

/-- The levels of two values beside each other: each level of the one, and then of the other. -/
def joinLevels : List (List Data) → List (List Data) → List (List Data)
  | [], others => others
  | levels, [] => levels
  | level :: levels, other :: others => (level ++ other) :: joinLevels levels others

mutual

/-- The levels of a value, of which the first has only the value itself. -/
def levels : Data → List (List Data)
  | .list items => [.list items] :: levelsOfItems items
  | .mapping entries => [.mapping entries] :: levelsOfEntries entries
  | d => [[d]]

/-- The levels of the items of a list. -/
def levelsOfItems : List Data → List (List Data)
  | [] => []
  | d :: rest => joinLevels (levels d) (levelsOfItems rest)

/-- The levels of the values of a mapping. -/
def levelsOfEntries : List (Key × Data) → List (List Data)
  | [] => []
  | (_, d) :: rest => joinLevels (levels d) (levelsOfEntries rest)

end

end StyleVars.Data
