import StyleVars.Data.Json
import StyleVars.Service.Framework

/-!
# Documents that are written

Documents are encoded in UTF-8, which has no surrogates, so that not every document can be written.
A refusal that cannot be written is replaced by one that says why.
-/

namespace StyleVars.Service.Plain

/-! ## Texts that cannot be encoded -/

/-- Surrogates side by side in a text: where the first one is, how many they are, and the number of
the first one. -/
structure SurrogateRun where
  first : Nat
  length : Nat
  unit : Nat

/-- The first surrogates of a text. -/
def SurrogateRun.of? (t : Text) : Option SurrogateRun :=
  let (before, rest) := t.span (!·.isSurrogate)
  rest.head?.map fun c =>
    ⟨before.length, (rest.takeWhile CodePoint.isSurrogate).length, c.toNat⟩

/-- How it is told that surrogates cannot be encoded. -/
def SurrogateRun.message (run : SurrogateRun) : Text :=
  "'utf-8' codec can't encode ".toText ++
    (if run.length = 1 then
      "character '\\u".toText ++ Text.hex 4 run.unit ++ "' in position ".toText ++
        Text.ofNat run.first
    else
      "characters in position ".toText ++ Text.ofNat run.first ++ .char '-' ::
        Text.ofNat (run.first + run.length - 1)) ++
    ": surrogates not allowed".toText

/-! ## Refusals -/

/-- What keeps a document from being written as it is: a number that is not finite, or surrogates.
Their positions are those in the text of the document. -/
def obstacle? (document : Data) : Option Text :=
  if !document.allFinite then some "Out of range float values are not JSON compliant".toText
  else (SurrogateRun.of? (document.jsonLine Text.plainString)).map SurrogateRun.message

/-- The document that tells what is wrong. -/
def detailed (detail : Data) : Data := .ofFields [("detail".toText, detail)]

/-- A response that tells what is wrong. -/
def refusal (status : Nat) (detail : Data) : Response :=
  match obstacle? (detailed detail) with
  | none => ⟨status, some (detailed detail)⟩
  | some obstacle => ⟨400, some (detailed (.text obstacle))⟩

/-! ## Answers -/

/-- Why an answer cannot be written. -/
inductive AnswerProblem
  /-- Its lists and mappings are nested too deeply. -/
  | tooDeep
  /-- One of its texts has surrogates. -/
  | surrogates (run : SurrogateRun)

/-- The wording of a problem. -/
def AnswerProblem.message : AnswerProblem → Text
  | tooDeep => "ValueError: Maximum serialization depth exceeded".toText
  | surrogates run => "UnicodeEncodeError: ".toText ++ run.message

/-- A text of an answer: one without surrogates. -/
def writtenText (t : Text) : Except AnswerProblem Text :=
  match SurrogateRun.of? t with
  | none => .ok t
  | some run => .error (.surrogates run)

/-- The name of an entry in an answer. -/
def writtenName : Data.Key → Except AnswerProblem Text
  | .null => .ok "None".toText
  | .bool b => .ok (if b then "true".toText else "false".toText)
  | .int n => .ok (Text.ofInt n)
  | .real x => .ok (if x.isFinite then Number.style.render x else "None".toText)
  | .text t => writtenText t

mutual

/-- A value as it is written in an answer, down to the given depth. A number that is not finite is
written as nothing. -/
def written (depth : Nat) (d : Data) : Except AnswerProblem Data :=
  if depth = 0 then .error .tooDeep
  else
    match d with
    | .real x => .ok (if x.isFinite then .real x else .null)
    | .text t => (writtenText t).map .text
    | .list items => (writtenItems (depth - 1) items).map .list
    | .mapping entries => do
      let fields ← writtenEntries (depth - 1) entries
      return .ofFields (Keyed.ofList fields)
    | d => .ok d

/-- The items of a list as they are written. -/
def writtenItems (depth : Nat) : List Data → Except AnswerProblem (List Data)
  | [] => .ok []
  | d :: rest => do
    let item ← written depth d
    let items ← writtenItems depth rest
    return item :: items

/-- The entries of a mapping as they are written. -/
def writtenEntries (depth : Nat) :
    List (Data.Key × Data) → Except AnswerProblem (List (Text × Data))
  | [] => .ok []
  | (key, d) :: rest => do
    let name ← writtenName key
    let value ← written depth d
    let fields ← writtenEntries depth rest
    return (name, value) :: fields

end

/-- How deeply the variables of an answer may be nested. -/
def maxAnswerDepth : Nat := 255

/-- The response that gives a compiled text and variables. -/
def answer (css : Text) (vars : Data) : Except Text Response :=
  let document : Except AnswerProblem Data := do
    let css ← writtenText css
    let vars ← written maxAnswerDepth vars
    return .ofFields [("css".toText, .text css), ("vars".toText, vars)]
  match document with
  | .ok d => .ok ⟨200, some d⟩
  | .error problem => .error ("Error serializing to JSON: ".toText ++ problem.message)

end StyleVars.Service.Plain
