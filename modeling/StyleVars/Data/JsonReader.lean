import StyleVars.Data.Basic
import StyleVars.Numeric.Reader
import StyleVars.Text.Surrogate

/-!
# Reading JSON text

A document is one value with white space around it. Of several entries of a mapping with one key the
last is taken, in the place of the first; that is done once all of the text has been read. A number
is an integer when it has neither a fraction nor an exponent. What is wrong with a text is the first
thing that its reader comes upon.
-/

namespace StyleVars

/-- Why a text is not read. -/
inductive JsonProblem
  /-- It is no document. -/
  | malformed
  /-- Its lists and mappings are nested too deeply. -/
  | tooDeep
  /-- It has an integer of that many digits. -/
  | longInteger (digits : Nat)

/-- How texts are read: how deeply lists and mappings may be nested, how many digits an integer may
have, and whether a pair of escaped surrogates is one character. -/
structure JsonRules where
  depth : Nat
  digits : Nat
  pairs : Bool

namespace JsonReader

/-- The white space between the parts of a document. -/
def isSpace (c : CodePoint) : Bool := c = ' ' || c = '\t' || c = '\n' || c = '\r'

/-- The text after the white space at its start. -/
def skip (t : Text) : Text := t.dropWhile isSpace

/-! ## Strings -/

/-- The code unit of four hexadecimal digits. -/
def unit? (a b c d : CodePoint) : Option Nat := do
  let high := (← Text.hexDigit? a) * 16 + (← Text.hexDigit? b)
  let low := (← Text.hexDigit? c) * 16 + (← Text.hexDigit? d)
  return high * 256 + low

/-- The character of an escape of one letter. -/
def escaped? (c : CodePoint) : Option CodePoint :=
  match c with
  | '"' => some '"'
  | '\\' => some '\\'
  | '/' => some '/'
  | 'b' => some '\x08'
  | 'f' => some '\x0c'
  | 'n' => some '\n'
  | 'r' => some '\r'
  | 't' => some '\t'
  | _ => none

/-- The text of a surrogate that waits for the other one of its pair and does not get it. -/
def leftOver (high : Option Nat) : Text := (high.map CodePoint.ofNat).toList

/-- The text that an escaped code unit completes, and the surrogate that waits after it. -/
def takeUnit (pairs : Bool) (high : Option Nat) (n : Nat) : Text × Option Nat :=
  match high with
  | some h =>
    if Surrogate.isLow n then ([Surrogate.join h n], none)
    else if Surrogate.isHigh n then ([.ofNat h], some n)
    else ([.ofNat h, .ofNat n], none)
  | none => if pairs && Surrogate.isHigh n then ([], some n) else ([.ofNat n], none)

/-- The rest of a string and the text after its closing quote. When `pairs` are joined, an escaped
high surrogate waits in `high` for the other one of its pair. -/
def readString (pairs : Bool) (high : Option Nat) : Text → Except JsonProblem (Text × Text)
  | '"' :: rest => .ok (leftOver high, rest)
  | '\\' :: 'u' :: a :: b :: c :: d :: rest =>
    match unit? a b c d with
    | none => .error .malformed
    | some n =>
      let (done, next) := takeUnit pairs high n
      (readString pairs next rest).map fun (t, after) => (done ++ t, after)
  | '\\' :: e :: rest =>
    match escaped? e with
    | some c => (readString pairs none rest).map fun (t, after) => (leftOver high ++ c :: t, after)
    | none => .error .malformed
  | c :: rest =>
    if 32 ≤ c.toNat ∧ c ≠ '\\' then
      (readString pairs none rest).map fun (t, after) => (leftOver high ++ c :: t, after)
    else .error .malformed
  | [] => .error .malformed

/-! ## Numbers and words -/

/-- The digits of a whole number and the text after them: one zero, or digits of which the first is
none. -/
def takeWhole : Text → Text × Text
  | '0' :: rest => (['0'], rest)
  | t => t.span CodePoint.isDigit

/-- The text after a fraction, when there is one. -/
def afterFraction? : Text → Option Text
  | '.' :: c :: rest => if c.isDigit then some (rest.dropWhile CodePoint.isDigit) else none
  | _ => none

/-- The text after an exponent, when there is one. -/
def afterExponent? : Text → Option Text
  | e :: rest =>
    match (takeSign rest).2 with
    | c :: more =>
      if (e = 'e' ∨ e = 'E') ∧ c.isDigit then some (more.dropWhile CodePoint.isDigit) else none
    | [] => none
  | [] => none

/-- The value of a number: an integer when it is a whole part only, which `whole` is then. -/
def numberValue? (negative : Bool) (whole : Text) (fractional : Option Text) : Option Data :=
  match fractional with
  | some size => (magnitudeOf? negative size).map .real
  | none => (natOfDigits? whole).map fun n => .int (if negative then -(n : Int) else n)

/-- The number at the start of a text: a sign, a whole part, and optionally a fraction and an
exponent. -/
def readNumber (rules : JsonRules) (t : Text) : Except JsonProblem (Data × Text) :=
  let (negative, size) :=
    match t with
    | '-' :: rest => (true, rest)
    | _ => (false, t)
  let (whole, rest) := takeWhole size
  let fraction := afterFraction? rest
  let exponent := afterExponent? (fraction.getD rest)
  let more := exponent.or fraction
  if whole = [] then .error .malformed
  else if more.isNone ∧ rules.digits < whole.length then .error (.longInteger whole.length)
  else
    let fractional := more.map fun after => size.take (size.length - after.length)
    match numberValue? negative whole fractional with
    | some d => .ok (d, more.getD rest)
    | none => .error .malformed

/-- The words for values, and those values. -/
def words : List (Text × Data) :=
  [("null".toText, .null), ("true".toText, .bool true), ("false".toText, .bool false),
    ("NaN".toText, .real .nan), ("Infinity".toText, .real (.infinite false)),
    ("-Infinity".toText, .real (.infinite true))]

/-- A word or a number at the start of a text, and the text after it. -/
def readAtom (rules : JsonRules) (t : Text) : Except JsonProblem (Data × Text) :=
  match words.find? fun (word, _) => word.isPrefixOf t with
  | some (word, d) => .ok (d, t.drop word.length)
  | none => readNumber rules t

/-! ## Lists and mappings -/

/-- The rules one level further in. -/
def deeper (rules : JsonRules) : Except JsonProblem JsonRules :=
  if rules.depth = 0 then .error .tooDeep else .ok { rules with depth := rules.depth - 1 }

mutual

/-- The value at the start of a text and the text after it. Its mappings have all the entries that
are written. Every step of the reading takes at least one character for every two of the `fuel`. -/
def readValue : Nat → JsonRules → Text → Except JsonProblem (Data × Text)
  | 0, _, _ => .error .malformed
  | fuel + 1, rules, t =>
    match skip t with
    | '"' :: rest => (readString rules.pairs none rest).map fun (s, after) => (.text s, after)
    | '[' :: rest => do
      let rules ← deeper rules
      match skip rest with
      | ']' :: after => return (.list [], after)
      | _ =>
        let (items, after) ← readItems fuel rules rest
        return (.list items, after)
    | '\x7b' :: rest => do
      let rules ← deeper rules
      match skip rest with
      | '\x7d' :: after => return (.mapping [], after)
      | _ =>
        let (fields, after) ← readFields fuel rules rest
        return (.ofFields fields, after)
    | other => readAtom rules other

/-- The items of a list up to its closing bracket. -/
def readItems : Nat → JsonRules → Text → Except JsonProblem (List Data × Text)
  | 0, _, _ => .error .malformed
  | fuel + 1, rules, t => do
    let (d, after) ← readValue fuel rules t
    match skip after with
    | ',' :: rest =>
      let (items, last) ← readItems fuel rules rest
      return (d :: items, last)
    | ']' :: rest => return ([d], rest)
    | _ => throw .malformed

/-- The entries of a mapping up to its closing brace. -/
def readFields : Nat → JsonRules → Text → Except JsonProblem (List (Text × Data) × Text)
  | 0, _, _ => .error .malformed
  | fuel + 1, rules, t => do
    match skip t with
    | '"' :: rest =>
      let (key, after) ← readString rules.pairs none rest
      match skip after with
      | ':' :: value =>
        let (d, after) ← readValue fuel rules value
        match skip after with
        | ',' :: rest =>
          let (fields, last) ← readFields fuel rules rest
          return ((key, d) :: fields, last)
        | '\x7d' :: rest => return ([(key, d)], rest)
        | _ => throw .malformed
      | _ => throw .malformed
    | _ => throw .malformed

end

end JsonReader

namespace Data

/-- The value of a JSON document that is read by the given rules, with all the entries that its
mappings are written with. -/
def readEntries (rules : JsonRules) (t : Text) : Except JsonProblem Data := do
  let (d, after) ← JsonReader.readValue (2 * t.length + 2) rules t
  if JsonReader.skip after = [] then return d else throw .malformed

/-- The value of a JSON document that is read by the given rules. -/
def readJson (rules : JsonRules) (t : Text) : Except JsonProblem Data :=
  (readEntries rules t).map merged

/-- The value of a JSON document, however deep it is and however long its integers are. -/
def ofJson? (t : Text) : Option Data := (readJson ⟨t.length, t.length, true⟩ t).toOption

end Data
end StyleVars
