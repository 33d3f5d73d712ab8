import StyleVars.Text.Blank
import StyleVars.Text.LowerCase

/-!
# The statements of a style sheet

A style sheet is read one character at a time. What a character means depends on the mode of the
reader, on the character after it, and on the statement and the blocks that are open. A statement is
closed by a semicolon, by the end of its block or by the end of the text; comments, quoted strings
and interpolation never close one, and neither does anything between parentheses.
-/

namespace StyleVars

/-- How far a block comment has been read. -/
inductive CommentPart
  | opening
  | inside
  | star
  deriving DecidableEq

/-- What the next character belongs to: code, a comment, a quoted string or an interpolation.
`afterColon` says that the last character was a colon, which keeps the slashes of an address from
opening a comment. A quoted string has its quote, whether a backslash came last, and the number of
open braces of the interpolation it stands in, if any. -/
inductive Mode
  | code (afterColon : Bool)
  | lineComment
  | blockComment (part : CommentPart)
  | quoted (quote : CodePoint) (escaped : Bool) (within : Option Nat)
  | interpolation (braces : Nat)
  deriving DecidableEq

/-- A statement: its text without the white space around it, the offsets of its first character and
of what follows it, how many blocks are open around it, and whether each of them is always run. -/
structure Statement where
  text : Text
  start : Nat
  stop : Nat
  depth : Nat
  unconditional : Bool
  deriving DecidableEq

/-- A statement that is still open: its first offset and its characters so far, the last one first.
-/
structure Pending where
  start : Nat
  body : Text
  deriving DecidableEq

/-- The reader of a style sheet between two characters. For each open block, the innermost first,
`blocks` says whether its body is always run. -/
structure Scanner where
  offset : Nat
  mode : Mode
  pending : Option Pending
  parens : Nat
  blocks : List Bool
  deriving DecidableEq

/-- The at-rules whose body is run whenever the rule itself is. -/
def unconditionalRules : List Text :=
  ["media".toText, "supports".toText, "at-root".toText, "document".toText]

/-- The body of a block with this header is always run. Style rules and nested properties are; of
the at-rules, only some are. -/
def alwaysRun : Text → Bool
  | '@' :: rest =>
    let name := rest.takeWhile isNameChar
    name.isEmpty || unconditionalRules.contains (Text.lower name)
  | _ => true

namespace Scanner

/-- Before the first character. -/
def start : Scanner := ⟨0, .code false, none, 0, []⟩

/-- Moves past a character, which belongs to the open statement if there is one. -/
def pass (s : Scanner) (c : CodePoint) (mode : Mode) : Scanner :=
  { s with
    offset := s.offset + 1
    mode := mode
    pending := s.pending.map fun p => { p with body := c :: p.body } }

/-- Opens a statement at the next character unless one is open. -/
def opened (s : Scanner) : Scanner :=
  { s with pending := some (s.pending.getD ⟨s.offset, []⟩) }

/-- Moves past a character that closes the open statement. -/
def closed (s : Scanner) : Scanner :=
  { s with offset := s.offset + 1, mode := .code false, pending := none }

/-- The text of the open statement so far. -/
def heldText (s : Scanner) : Text :=
  match s.pending with
  | some p => Text.strip p.body.reverse
  | none => []

/-- The open statement, when it has any text, with the given end. -/
def emit (s : Scanner) (stop : Nat) : List Statement :=
  match s.pending with
  | none => []
  | some p =>
    if s.heldText = [] then []
    else [⟨s.heldText, p.start, stop, s.blocks.length, s.blocks.all id⟩]

/-- What follows a string: the interpolation it stands in, or code. -/
def afterString : Option Nat → Mode
  | none => .code false
  | some braces => .interpolation braces

/-- Reads a character of code that is neither white space nor part of a comment; a statement is
open. -/
def readCode (s : Scanner) (c : CodePoint) (next : Option CodePoint) : Scanner × List Statement :=
  if c = '"' ∨ c = '\x27' then (s.pass c (.quoted c false none), [])
  else if c = '#' ∧ next = some (.char '\x7b') then (s.pass c (.interpolation 0), [])
  else if c = '(' then ({ s with parens := s.parens + 1 }.pass c (.code false), [])
  else if c = ')' then ({ s with parens := s.parens - 1 }.pass c (.code false), [])
  else if s.parens = 0 ∧ c = ';' then (s.closed, s.emit (s.offset + 1))
  else if s.parens = 0 ∧ c = '\x7b' then
    ({ s with blocks := alwaysRun s.heldText :: s.blocks }.closed, [])
  else if s.parens = 0 ∧ c = '\x7d' then
    ({ s with blocks := s.blocks.tail }.closed, s.emit s.offset)
  else (s.pass c (.code (c = ':')), [])

/-- Reads one character, `next` being the one after it. Gives the statement that it closes, if any.
-/
def step (s : Scanner) (c : CodePoint) (next : Option CodePoint) : Scanner × List Statement :=
  match s.mode with
  | .lineComment => (s.pass c (if c = '\n' then .code false else .lineComment), [])
  | .blockComment part =>
    let mode : Mode :=
      match part with
      | .opening => .blockComment .inside
      | .inside => .blockComment (if c = '*' then .star else .inside)
      | .star =>
        if c = '/' then .code false else .blockComment (if c = '*' then .star else .inside)
    (s.pass c mode, [])
  | .quoted quote escaped within =>
    let mode : Mode :=
      if escaped then .quoted quote false within
      else if c = '\\' then .quoted quote true within
      else if c = quote ∨ c = '\n' then afterString within
      else .quoted quote false within
    (s.pass c mode, [])
  | .interpolation braces =>
    let mode : Mode :=
      if c = '\x7b' then .interpolation (braces + 1)
      else if c = '\x7d' then if braces ≤ 1 then .code false else .interpolation (braces - 1)
      else if c = '"' ∨ c = '\x27' then .quoted c false (some braces)
      else .interpolation braces
    (s.pass c mode, [])
  | .code afterColon =>
    if c = '/' ∧ next = some (.char '/') ∧ afterColon = false then (s.pass c .lineComment, [])
    else if c = '/' ∧ next = some (.char '*') then (s.pass c (.blockComment .opening), [])
    else if isBlank c then (s.pass c (.code false), [])
    else s.opened.readCode c next

/-- The reader after a text that is followed by `next`. -/
def advance (s : Scanner) (next : Option CodePoint) : Text → Scanner
  | [] => s
  | c :: rest => advance (s.step c (rest.head?.or next)).1 next rest

/-- The statements closed within a text that is followed by `next`. -/
def closedIn (s : Scanner) (next : Option CodePoint) : Text → List Statement
  | [] => []
  | c :: rest =>
    let (s', found) := s.step c (rest.head?.or next)
    found ++ closedIn s' next rest

/-- The statements of the rest of a style sheet; the end of the text closes the last one. -/
def scan (s : Scanner) : Text → List Statement
  | [] => s.emit s.offset
  | c :: rest =>
    let (s', found) := s.step c rest.head?
    found ++ scan s' rest

end Scanner

/-- The statements of a style sheet in the order in which they are closed. -/
def statements (text : Text) : List Statement := Scanner.start.scan text

end StyleVars
