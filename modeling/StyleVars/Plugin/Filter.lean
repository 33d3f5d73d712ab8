import StyleVars.Plugin.Builtin
import StyleVars.Text.LowerCase

/-!
# The filter

`filter` keeps or drops variables by name and by type. Names may be given without the dollar sign,
and types in any letter case and without the first syllable of their names. Since it reads the
types, it has to stand before `compact`.
-/

namespace StyleVars

/-- The name of a type in lower case without the syllable that all of them have. -/
def typeKey (tag : Text) : Text :=
  let lowered := Text.lower tag
  if "sass".toText.isPrefixOf lowered then lowered.drop 4 else lowered

/-- The name of a variable with its dollar sign. -/
def variableName (name : Text) : Text := if name.head? = some '$' then name else '$' :: name

/-- Which variables to keep and which to drop; an empty list of those to keep keeps all. -/
structure FilterRules where
  onlyNames : List Text
  onlyTypes : List Text
  exceptNames : List Text
  exceptTypes : List Text

/-- The texts that an option lists. One text stands for a list of one. -/
def optionTexts : Option Data → Except Failure (List Text)
  | none => .ok []
  | some .null => .ok []
  | some (.text t) => .ok [t]
  | some (.list items) => .ok (items.map Data.toText)
  | some (.mapping entries) => .ok (entries.map fun (key, _) => key.toText)
  | some d => .error (.notIterable d.typeName)

/-- The entries of a group of options; an empty value stands for none. -/
def optionGroup (options : Data.Entries) (group : Text) : Except Failure Data.Entries :=
  match Data.field? group options with
  | none => .ok []
  | some (.mapping entries) => .ok entries
  | some d => if d.isEmpty then .ok [] else .error .notMapping

namespace FilterRules

/-- The rules that the options of the filter give. -/
def ofOptions (options : Data.Entries) : Except Failure FilterRules := do
  let only ← optionGroup options "only".toText
  let onlyNames ← optionTexts (Data.field? "props".toText only)
  let onlyTypes ← optionTexts (Data.field? "types".toText only)
  let excluded ← optionGroup options "except".toText
  let exceptNames ← optionTexts (Data.field? "props".toText excluded)
  let exceptTypes ← optionTexts (Data.field? "types".toText excluded)
  return ⟨onlyNames.map variableName, onlyTypes.map typeKey,
    exceptNames.map variableName, exceptTypes.map typeKey⟩

/-- The type that an entry of a payload gives. -/
def entryType (entry : Data) : Option Text :=
  match entry.get? "type".toText with
  | some (.text tag) => some (typeKey tag)
  | _ => none

/-- An entry of a payload is kept. -/
def keeps (rules : FilterRules) (key : Data.Key) (entry : Data) : Bool :=
  let isNamed (names : List Text) : Bool := key.text?.any names.contains
  let isOf (types : List Text) : Bool := (entryType entry).any types.contains
  (rules.onlyNames.isEmpty || isNamed rules.onlyNames) &&
    (rules.onlyTypes.isEmpty || isOf rules.onlyTypes) &&
    !isNamed rules.exceptNames && !isOf rules.exceptTypes

end FilterRules

/-- The filter with its options. -/
def Plugin.filter (options : Data.Entries) : Except Failure Plugin := do
  let rules ← FilterRules.ofOptions options
  return { Plugin.inert "filter".toText options with
    onPayload := fun payload =>
      (overScopes (·.filter fun (key, entry) => rules.keeps key entry) payload).map .ready }

end StyleVars
