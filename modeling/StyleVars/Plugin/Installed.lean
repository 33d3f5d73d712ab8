import StyleVars.Plugin.Registry

/-!
# The installed plugins

A small set of plugins that come from outside the library: one that has to be waited for, one that
adds its options to the payload, and several names under which they are installed, some of them
wrongly.
-/

namespace StyleVars

namespace Plugin

/-- Changes nothing under the name that plugins have when they are given none. -/
def unnamed (options : Data.Entries) : Plugin := .inert "plugin".toText options

/-- Wraps the payload, but has to be waited for. -/
def awaiting (options : Data.Entries) : Plugin :=
  { inert "awaiting".toText options with
    onPayload := fun payload => .ok (.later (.ok (.ofFields [("wrapped".toText, payload)]))) }

/-- Adds its options to the payload. -/
def shout (options : Data.Entries) : Plugin :=
  { inert "shout".toText options with
    onPayload := fun payload =>
      match payload with
      | .mapping entries =>
        .ok (.ready (.mapping (Data.insert entries (.text "shout".toText) (.mapping options))))
      | d => .error (.withoutEntries d.typeName) }

end Plugin

/-- Where an installed plugin says it comes from. -/
def origin (place : String) : Data.Entries := Data.named [("from".toText, .text place.toText)]

/-- The options as entries to add to others; an empty value has none. -/
def addedEntries : Option Data → Except Failure Data.Entries
  | none => .ok []
  | some (.mapping entries) => .ok entries
  | some d => if d.isEmpty then .ok [] else .error (.withoutEntries d.typeName)

/-- The installed plugins. The first one is never reached, since a builtin plugin has its name. -/
def installedPlugins : Registry :=
  [("serialize".toText, .maker fun options => .ok (.shout options)),
    ("Ext-Class".toText, .maker fun options => .ok (.shout options)),
    ("ext-instance".toText, .plugin (.shout (origin "instance"))),
    ("ext-factory".toText, .function fun options => do
      return some (.shout (Keyed.putAll (origin "factory") (← addedEntries options)))),
    ("ext-bad".toText, .function fun _ => .ok none),
    ("ext-value".toText, .useless),
    ("ext-broken".toText, .broken "no module".toText)]

end StyleVars
