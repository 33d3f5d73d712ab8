import StyleVars.Sheet.Statement

/-!
# Imports

An import statement names one or more targets, separated by commas. A target that is a quoted path
to a style sheet is replaced by that style sheet when it is compiled; any other target is a plain
import, which is passed through.
-/

namespace StyleVars

/-- One target of an import as it is written, and its path unless it is a plain import. -/
structure ImportTarget where
  raw : Text
  path : Option Text
  deriving DecidableEq

/-- An import statement and the offsets of its first character and of what follows it. -/
structure ImportRule where
  targets : List ImportTarget
  start : Nat
  stop : Nat
  deriving DecidableEq

/-- A path that is imported by the browser and not by the compiler. -/
def isPlainImport (path : Text) : Bool :=
  let lowered := Text.lower path
  ".css".toText.isSuffixOf lowered || "http://".toText.isPrefixOf lowered ||
    "https://".toText.isPrefixOf lowered || "//".toText.isPrefixOf lowered ||
    "url(".toText.isPrefixOf lowered

/-- The text between two equal quotes. -/
def unquoted? : Text → Option Text
  | c :: rest =>
    if (c = '"' ∨ c = '\x27') ∧ rest.getLast? = some c then some rest.dropLast else none
  | [] => none

/-- The target that is written as `raw`. -/
def ImportTarget.ofRaw (raw : Text) : ImportTarget :=
  ⟨raw, (unquoted? raw).filter fun path => !isPlainImport path⟩

/-- The targets of an import as they are read: the finished ones, the characters of the current one
(the last one first), the open quote, and the parentheses opened less those closed. -/
structure TargetSplit where
  done : List Text
  current : Text
  quote : Option CodePoint
  depth : Int

namespace TargetSplit

/-- Reads one character. Commas separate targets outside quotes and parentheses. -/
def step (s : TargetSplit) (c : CodePoint) : TargetSplit :=
  match s.quote with
  | some q => { s with current := c :: s.current, quote := if c = q then none else some q }
  | none =>
    if c = '"' ∨ c = '\x27' then { s with current := c :: s.current, quote := some c }
    else if c = '(' then { s with current := c :: s.current, depth := s.depth + 1 }
    else if c = ')' then { s with current := c :: s.current, depth := s.depth - 1 }
    else if c = ',' ∧ s.depth = 0 then
      { s with done := s.done ++ [Text.strip s.current.reverse], current := [] }
    else { s with current := c :: s.current }

/-- The targets, the current one included. -/
def finish (s : TargetSplit) : List Text := s.done ++ [Text.strip s.current.reverse]

end TargetSplit

/-- The nonempty pieces between the commas that stand outside quotes and parentheses. -/
def splitTargets (text : Text) : List Text :=
  (text.foldl TargetSplit.step ⟨[], [], none, 0⟩).finish.filter (· ≠ [])

/-- A letter of the given keyword, in either case; the letter i also without or with a dot over it
in the case that usually has it otherwise. -/
def matchesLetter (letter c : CodePoint) : Bool :=
  c.toLower = letter || (letter = 'i' && (c = '\u0131' || c = '\u0130'))

/-- The text after the keyword `@import`, in any letter case. -/
def afterImport? (text : Text) : Option Text :=
  let keyword := "@import".toText
  let word := text.take keyword.length
  let rest := text.drop keyword.length
  if word.length = keyword.length ∧
      (keyword.zip word).all (fun (letter, c) => matchesLetter letter c) ∧
      (rest.head?.map isWord).getD false = false then some rest
  else none

/-- The import that a statement makes. Imports in blocks that are not always run are left alone. -/
def Statement.import? (s : Statement) : Option ImportRule :=
  if s.unconditional then
    (afterImport? s.text).bind fun rest =>
      match splitTargets rest with
      | [] => none
      | raws => some ⟨raws.map ImportTarget.ofRaw, s.start, s.stop⟩
  else none

/-- The imports of a style sheet in order. -/
def imports (text : Text) : List ImportRule := (statements text).filterMap Statement.import?

end StyleVars
