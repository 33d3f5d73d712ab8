import StyleVars.Plugin.Basic

/-!
# The plugins without options

`serialize` replaces every value by its flat form and `compact` strips the payload of types and
provenance; `minimal` does both.
-/

namespace StyleVars

variable [ColorNames]

/-- The type of an entry of a payload is the one of the given name. -/
def hasTag (tag : Option Data) (name : Text) : Bool :=
  match tag with
  | some (.text t) => t = name
  | _ => false

mutual

/-- The value of an entry of a payload, without types. What has no value stays as it is. -/
def untyped : Data → Data
  | .mapping entries =>
    (untypedField (Data.field? "type".toText entries) entries).getD (.mapping entries)
  | d => d

/-- The value among the fields of an entry of the given type. -/
def untypedField (tag : Option Data) : List (Data.Key × Data) → Option Data
  | [] => none
  | (key, value) :: rest =>
    if key = .text "value".toText then some (untypedPart tag value) else untypedField tag rest

/-- A value of the given type without the types of its parts. -/
def untypedPart (tag : Option Data) : Data → Data
  | .list items => .list (if hasTag tag Kind.list.name then untypedItems items else items)
  | .mapping entries =>
    .mapping (if hasTag tag Kind.map.name then untypedEntries entries else entries)
  | d => d

/-- The items of a list without types. -/
def untypedItems : List Data → List Data
  | [] => []
  | d :: rest => untyped d :: untypedItems rest

/-- The entries of a mapping without types. -/
def untypedEntries : List (Data.Key × Data) → List (Data.Key × Data)
  | [] => []
  | (key, d) :: rest => (key, untyped d) :: untypedEntries rest

end

/-- The payload with the variables of each of its scopes changed. -/
def overScopes (f : Data.Entries → Data.Entries) : Data → Except Failure Data
  | .mapping scopes => do
    let changed ← scopes.mapM fun (scope, content) =>
      match content with
      | .mapping entries => .ok (scope, Data.mapping (f entries))
      | _ => .error .notMapping
    return .mapping changed
  | _ => .error .notMapping

/-- The payload without types and provenance. -/
def compactPayload (payload : Data) : Except Failure Data := overScopes untypedEntries payload

/-- A value as its flat form, with the type that it carried. -/
def serializeValue (value : Structured) (native : Native) : Except Failure Structured :=
  (flatten false native).map (.flat value.ownTag)

namespace Plugin

/-- A plugin that changes nothing. -/
def inert (name : Text) (options : Data.Entries) : Plugin where
  name := name
  options := options
  onValue value _ := .ok value
  onPayload payload := .ok (.ready payload)

/-- Replaces every value by its flat form. -/
def serialize (options : Data.Entries) : Plugin :=
  { inert "serialize".toText options with onValue := serializeValue }

/-- Strips the payload of types and provenance. -/
def compact (options : Data.Entries) : Plugin :=
  { inert "compact".toText options with
    onPayload := fun payload => (compactPayload payload).map .ready }

/-- Gives every variable as the text of its value. -/
def minimal (options : Data.Entries) : Plugin :=
  { inert "minimal".toText options with
    onValue := serializeValue
    onPayload := fun payload => (compactPayload payload).map .ready }

end Plugin
end StyleVars
