import StyleVars.Data.Document
import StyleVars.Service.Plain.Documents

/-!
# Bodies that make requests

The body of a request is a document whose entries name a style sheet, or give its text, and say how
to extract its variables. When entries have the wrong form, all of them are told of, in the order in
which they are described here and not in that of the document.
-/

namespace StyleVars.Service.Plain

/-! ## The wrong form -/

/-- What is wrong with a value. -/
inductive FormProblem
  | missing
  | notEntries
  | notText
  | notList
  | notMapping
  deriving DecidableEq

namespace FormProblem

/-- The name of a problem. -/
def name : FormProblem → Text
  | missing => "missing".toText
  | notEntries => "model_attributes_type".toText
  | notText => "string_type".toText
  | notList => "list_type".toText
  | notMapping => "dict_type".toText

/-- The wording of a problem. -/
def message : FormProblem → Text
  | missing => "Field required".toText
  | notEntries =>
    "Input should be a valid dictionary or object to extract fields from".toText
  | notText => "Input should be a valid string".toText
  | notList => "Input should be a valid list".toText
  | notMapping => "Input should be a valid dictionary".toText

end FormProblem

/-- A problem, where in the body it is, and the value that has it. -/
structure FormError where
  problem : FormProblem
  location : List Data
  input : Data

mutual

/-- A value as it is told back, without the entries whose names start with `_sa`. -/
def toldBack : Data → Data
  | .list items => .list (toldBackItems items)
  | .mapping entries => .mapping (toldBackEntries entries)
  | d => d

/-- The items of a list as they are told back. -/
def toldBackItems : List Data → List Data
  | [] => []
  | d :: rest => toldBack d :: toldBackItems rest

/-- The entries of a mapping as they are told back. -/
def toldBackEntries : List (Data.Key × Data) → List (Data.Key × Data)
  | [] => []
  | (key, d) :: rest =>
    if key.text?.any "_sa".toText.isPrefixOf then toldBackEntries rest
    else (key, toldBack d) :: toldBackEntries rest

end

/-- An error as it is told. -/
def FormError.toData (e : FormError) : Data :=
  .ofFields [("type".toText, .text e.problem.name),
    ("loc".toText, .list (.text "body".toText :: e.location)),
    ("msg".toText, .text e.problem.message), ("input".toText, toldBack e.input)]

/-! ## Entries -/

/-- A value that has been read, or nothing in its place, and the errors in it. -/
abbrev Checked (α : Type) := α × List FormError

/-- A text, which may be missing. -/
def textField (name : Text) : Option Data → Checked (Option Text)
  | none | some .null => (none, [])
  | some (.text t) => (some t, [])
  | some d => (none, [⟨.notText, [.text name], d⟩])

/-- The items of a list from the given number on. -/
def checkedItems {α : Type} (item : List Data → Data → Checked (Option α)) (name : Text)
    (index : Nat) : List Data → Checked (List α)
  | [] => ([], [])
  | d :: rest =>
    let (value, errors) := item [.text name, .ofNat index] d
    let (values, more) := checkedItems item name (index + 1) rest
    (value.toList ++ values, errors ++ more)

/-- A list, which may be missing. -/
def listField {α : Type} (item : List Data → Data → Checked (Option α)) (name : Text) :
    Option Data → Checked (List α)
  | none => ([], [])
  | some (.list items) => checkedItems item name 0 items
  | some d => ([], [⟨.notList, [.text name], d⟩])

/-- An item of a list of texts. -/
def textItem (location : List Data) : Data → Checked (Option Text)
  | .text t => (some t, [])
  | d => (none, [⟨.notText, location, d⟩])

/-- The description of a plugin, a text or a mapping. Anything else is wrong as either of them. -/
def pluginItem (location : List Data) : Data → Checked (Option Data)
  | .text t => (some (.text t), [])
  | .mapping entries => (some (.mapping entries), [])
  | d => (none, [⟨.notText, location ++ [.text "str".toText], d⟩,
      ⟨.notMapping, location ++ [.text "dict[str,any]".toText], d⟩])

/-- The request of some entries. Entries of other names are ignored. -/
def requestOfEntries (entries : Data.Entries) : Checked Request :=
  let field? (name : Text) := Data.field? name entries
  let (path, first) := textField "path".toText (field? "path".toText)
  let (data, second) := textField "data".toText (field? "data".toText)
  let (includePaths, third) :=
    listField textItem "include_paths".toText (field? "include_paths".toText)
  let (plugins, fourth) := listField pluginItem "plugins".toText (field? "plugins".toText)
  (⟨path, data, includePaths, plugins⟩, first ++ second ++ third ++ fourth)

/-- The request that a document makes. -/
def requestOfData : Data → Except (List FormError) Request
  | .mapping entries =>
    match requestOfEntries entries with
    | (request, []) => .ok request
    | (_, errors) => .error errors
  | .null => .error [⟨.missing, [], .null⟩]
  | d => .error [⟨.notEntries, [], d⟩]

/-! ## Bodies -/

/-- Why a body is no document: something else than a document, or one that cannot be read. -/
inductive BodyProblem
  | malformed
  | unreadable

/-- How deeply the lists and mappings of a body may be nested. -/
def maxBodyDepth : Nat := 968

/-- The document of a body. -/
def bodyDocument (body : List Nat) : Except BodyProblem Data :=
  if body.isEmpty then .error .malformed
  else
    match Document.decode? body with
    | none => .error .unreadable
    | some text =>
      match Data.readJson ⟨maxBodyDepth, maxDigits, true⟩ text with
      | .ok d => .ok d
      | .error .malformed => .error .malformed
      | .error _ => .error .unreadable

/-- The request that a body makes. What is no document at all is refused without one. -/
def readRequest (body : List Nat) : Except Response Request :=
  match bodyDocument body with
  | .error .malformed => .error ⟨422, none⟩
  | .error .unreadable => .error (refusal 400 (.text "There was an error parsing the body".toText))
  | .ok d =>
    (requestOfData d).mapError fun errors => refusal 422 (.list (errors.map FormError.toData))

end StyleVars.Service.Plain
