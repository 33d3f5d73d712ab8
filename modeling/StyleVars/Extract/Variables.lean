import StyleVars.Extract.Instrument

/-!
# Merging the values of a variable

A variable may be declared many times, in many files. It has the value of its last declaration that
is not a default, or of its last declaration when all of them are defaults. All of its declarations
are kept as its provenance.
-/

namespace StyleVars

/-- Where and how a variable is declared. -/
structure Provenance where
  expression : Text
  flags : Flags
  file : Text
  position : Position

/-- A variable: its value, the files that declare it, and its declarations. -/
structure Variable where
  value : Structured
  sources : List Text
  sites : List Provenance

/-- Variables by name, in the order of their first declarations. -/
abbrev Variables := Keyed Text Variable

/-- The declaration of a captured value in a file. -/
def Provenance.ofCaptured (file : Text) (captured : Captured) : Provenance :=
  let d := captured.declaration
  ⟨d.expression, d.flags, file, d.position⟩

namespace Variable

/-- The variable after one more declaration. A default only takes over while there are none but
defaults. -/
def declare (current : Option Variable) (file : Text) (captured : Captured) : Variable :=
  let site := Provenance.ofCaptured file captured
  match current with
  | none => ⟨captured.value, [file], [site]⟩
  | some v =>
    let takesOver := !captured.declaration.flags.default || v.sites.all (·.flags.default)
    { value := if takesOver then captured.value else v.value
      sources := Keyed.insertNew v.sources file
      sites := v.sites ++ [site] }

end Variable

namespace Variables

/-- The variables after one more declaration of a name. -/
def declare (file name : Text) (vars : Variables) (captured : Captured) : Variables :=
  Keyed.put name (Variable.declare (Keyed.get? name vars) file captured) vars

/-- The variables after the declarations of one more file, taken name by name. -/
def declareAll (vars : Variables) (file : Text) (captures : Captures) : Variables :=
  captures.byName.foldl (fun vars (name, group) => group.foldl (declare file name) vars) vars

/-- The variables of several files, taken in the given order. -/
def merge (files : List (Text × Captures)) : Variables :=
  files.foldl (fun vars (file, captures) => vars.declareAll file captures) []

end Variables

/-! ## The payload -/

/-- A position as data. -/
def Position.toData (p : Position) : Data :=
  .ofFields [("line".toText, .ofNat p.line), ("column".toText, .ofNat p.column),
    ("cursor".toText, .ofNat p.cursor)]

/-- The flags of a declaration as data. -/
def Flags.toData (flags : Flags) : Data :=
  .ofFields [("default".toText, .bool flags.default), ("global".toText, .bool flags.isGlobal)]

/-- A declaration as data. -/
def Provenance.toData (site : Provenance) : Data :=
  .ofFields [("expression".toText, .text site.expression), ("flags".toText, site.flags.toData),
    ("in".toText, .text site.file), ("position".toText, site.position.toData)]

/-- A variable as data: its value with its type, and its provenance. -/
def Variable.toData (v : Variable) : Data :=
  .ofFields (v.value.fields ++
    [("sources".toText, .list (v.sources.map .text)),
      ("declarations".toText, .list (v.sites.map Provenance.toData))])

/-- The payload that is handed to plugins and callers. -/
def Variables.payload (vars : Variables) : Data :=
  .ofFields [("global".toText, .ofFields (vars.map fun (name, v) => (name, v.toData)))]

end StyleVars
