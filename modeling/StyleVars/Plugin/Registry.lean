import StyleVars.Plugin.Filter

/-!
# Finding plugins

A plugin is described by its name, by a mapping that gives the name and the options, or by itself.
Names are looked up among the builtin plugins first and then among the installed ones, whatever
their letter case.
-/

namespace StyleVars

variable [ColorNames]

/-- Makes a plugin from its options. -/
abbrev PluginMaker := Data.Entries → Except Failure Plugin

/-- What is installed under a name: a maker of plugins, a plugin, a function from options that
should make a plugin, something else, or something that cannot be loaded for the given reason. -/
inductive Installed
  | maker (make : PluginMaker)
  | plugin (plugin : Plugin)
  | function (make : Option Data → Except Failure (Option Plugin))
  | useless
  | broken (reason : Text)

/-- The installed plugins in the order in which they are looked through. -/
abbrev Registry := List (Text × Installed)

/-- What a mapping names as its plugin. -/
inductive PluginTarget
  | name (name : Text)
  | maker (make : PluginMaker)
  | nothing

/-- A description of a plugin. -/
inductive PluginSpec
  | name (name : Text)
  | maker (make : PluginMaker)
  | plugin (plugin : Plugin)
  | mapping (target : PluginTarget) (options : Option Data)
  | other (description : Data)

/-- The key that a value is, when it can be one. -/
def keyOf : Data → Except Failure Data.Key
  | .null => .ok .null
  | .bool b => .ok (.bool b)
  | .int n => .ok (.int n)
  | .real x => .ok (.real x)
  | .text t => .ok (.text t)
  | d => .error (.unusableKey d.typeName)

/-- The entry that an item of a list of entries stands for. The item has two parts, the key and the
value; a text and a mapping may stand for the list of their characters and of their keys. -/
def optionEntry (index : Nat) (item : Data) : Except Failure (Data.Key × Data) :=
  let parts : Option (List Data) :=
    match item with
    | .list items => some items
    | .text t => some (t.map fun c => .text [c])
    | .mapping entries => some (entries.map fun (key, _) => key.toData)
    | _ => none
  match parts with
  | none => .error (.entryWithoutParts index)
  | some [key, value] => (keyOf key).map fun key => (key, value)
  | some parts => .error (.entryLength index parts.length)

/-- The entries that the items of a list stand for, numbered from the given number on. -/
def optionPairs (index : Nat) : List Data → Except Failure Data.Entries
  | [] => .ok []
  | item :: rest => do
    let entry ← optionEntry index item
    let entries ← optionPairs (index + 1) rest
    return entry :: entries

/-- The options as a mapping; an empty value stands for none, and a list for its entries. -/
def optionEntries : Option Data → Except Failure Data.Entries
  | none | some .null => .ok []
  | some (.mapping entries) => .ok entries
  | some (.list items) => (optionPairs 0 items).map Data.collect
  | some (.text []) => .ok []
  | some (.text _) => .error (.entryLength 0 1)
  | some d => if d.isEmpty then .ok [] else .error (.notIterable d.typeName)

/-- The builtin plugins by name. -/
def builtinMaker? (name : Text) : Option PluginMaker :=
  if name = "serialize".toText then some fun options => .ok (.serialize options)
  else if name = "compact".toText then some fun options => .ok (.compact options)
  else if name = "minimal".toText then some fun options => .ok (.minimal options)
  else if name = "filter".toText then some Plugin.filter
  else none

/-- The plugin that is installed under a name as it was asked for. -/
def Installed.load (name : Text) (options : Option Data) : Installed → Except Failure Plugin
  | maker make => do make (← optionEntries options)
  | plugin p => .ok p
  | function make => do
    match ← make options with
    | some p => return p
    | none => throw .pluginMakerResult
  | useless => .error .pluginMaker
  | broken reason => .error (.brokenPlugin name reason)

/-- The plugin of a name with the given options. -/
def pluginNamed (registry : Registry) (name : Text) (options : Option Data) :
    Except Failure Plugin := do
  let key := Text.lower name
  match builtinMaker? key with
  | some make => make (← optionEntries options)
  | none =>
    match registry.find? fun (entry, _) => Text.lower entry = key with
    | some (_, installed) => installed.load name options
    | none => throw (.unknownPlugin name)

namespace PluginSpec

/-- The plugin that is described. -/
def load (registry : Registry) : PluginSpec → Except Failure Plugin
  | name n => pluginNamed registry n none
  | maker make => make []
  | plugin p => .ok p
  | mapping (.name n) options => pluginNamed registry n options
  | mapping (.maker make) options => do make (← optionEntries options)
  | mapping .nothing _ => .error .pluginTarget
  | other description => .error (.pluginDescription description)

/-- The description that a value of a document gives. -/
def ofData : Data → PluginSpec
  | .text t => .name t
  | .mapping entries =>
    let target : PluginTarget :=
      match Data.field? "plugin".toText entries with
      | some (.text t) => .name t
      | _ => .nothing
    .mapping target (Data.field? "options".toText entries)
  | d => .other d

end PluginSpec

/-- The pipeline of the plugins that are described. -/
def Pipeline.ofSpecs (registry : Registry) (specs : List PluginSpec) : Except Failure Pipeline :=
  specs.mapM (PluginSpec.load registry)

end StyleVars
