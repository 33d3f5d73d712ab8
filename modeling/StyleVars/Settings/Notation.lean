import StyleVars.Data.JsonReader

/-!
# The notation of settings files

Settings are written as JSON with some more rules, most of them about lines. Comments run from a
number sign to the end of their line. A name stands in one line with its colon and not too far from
it. A text that is broken over several lines has a blank, or its empty lines, in place of the line
breaks and of the blanks around them; none of its lines may start with a mark between documents.
Tabs may stand in comments only. An exponent has a sign, and a point before it: what is a number
only without this rule is a text, and so are the words for what is no finite number.

`plainJson?` carries these rules out, which gives JSON without comments and without such texts.
-/

namespace StyleVars.Settings

/-- A character that ends a line. -/
def isLineBreak (c : CodePoint) : Bool :=
  c = '\n' || c = '\r' || c = '\u0085' || c = '\u2028' || c = '\u2029'

/-- The blanks and line breaks before the next character of a text: so many blanks, or a line break
and the empty lines after it. -/
inductive Gap
  | blanks (count : Nat)
  | lines (first : CodePoint) (others : Text)

namespace Gap

/-- A line break in a text; all but the separators of lines and of paragraphs are the same. -/
def breakText (c : CodePoint) : Text :=
  if c = '\u2028' ∨ c = '\u2029' then [c] else "\\n".toText

/-- What stands in place of a gap. -/
def text : Gap → Text
  | blanks count => List.replicate count ' '
  | lines first others =>
    if first = '\u2028' ∨ first = '\u2029' then first :: others
    else if others = [] then [' ']
    else others

/-- The gap with a blank or a line break after it. Blanks next to a line break do not count. -/
def push (gap : Gap) (c : CodePoint) : Gap :=
  match gap with
  | blanks count => if isLineBreak c then lines c [] else blanks (count + 1)
  | lines first others => lines first (if isLineBreak c then others ++ breakText c else others)

end Gap

/-- Where the next character stands. Code has the word that is not finished yet, its last character
first. A text has the number of characters since its opening quote, whether a backslash came last,
whether it had a line break, and what blanks came last. A text that has been closed may be a name;
what follows the blanks after it decides. -/
inductive Spot
  | code (word : Text)
  | comment (closed : Bool)
  | text (size : Nat) (escaped broken : Bool) (gap : Gap)
  | closed (size : Nat) (broken : Bool)

/-- How many characters there may be from the opening quote of a name to its colon. -/
def maxNameSize : Nat := 1024

/-! ## Words -/

/-- A number in JSON. -/
def isNumber (word : Text) : Bool :=
  match JsonReader.readNumber ⟨0, word.length, false⟩ word with
  | .ok (_, []) => true
  | _ => false

/-- A number whose exponent has no sign, or no point before it. -/
def isLooseNumber (word : Text) : Bool :=
  match word.span fun c => c ≠ .char 'e' ∧ c ≠ .char 'E' with
  | (size, _ :: sign :: _) =>
    !(size.contains '.' && (sign = '+' || sign = '-')) && isNumber word
  | _ => false

/-- The words that JSON has for what is no finite number. -/
def wordsOfNoNumber : List Text := ["NaN".toText, "Infinity".toText, "-Infinity".toText]

/-- What stands in JSON for a word. -/
def plainWord (word : Text) : Text :=
  if isLooseNumber word || wordsOfNoNumber.contains word then .char '"' :: word ++ [.char '"']
  else word

/-! ## Documents -/

/-- A text starts with a mark that stands between documents: three hyphens or three dots in a row
and then a blank or the end of a line. -/
def startsWithMark (t : Text) : Bool :=
  (t.take 3 = "---".toText || t.take 3 = "...".toText) &&
    (t.drop 3).head?.all fun (c : CodePoint) => c = ' ' || c = '\t' || isLineBreak c

namespace Spot

/-- Reads a character of code after an unfinished word. -/
def readCode (word : Text) (c : CodePoint) : Option (Spot × Text) :=
  let before := plainWord word.reverse
  if c = '\t' then none
  else if c = '"' then some (text 1 false false (.blanks 0), before ++ [c])
  else if c = '#' ∧ word = [] then some (comment false, [])
  else if isLineBreak c then some (code [], before ++ [.char '\n'])
  else if " \x7b\x7d[],:".toText.contains c then some (code [], before ++ [c])
  else some (code (c :: word), [])

/-- Reads a character that has the given ones after it; gives what stands for it in JSON. -/
def step (s : Spot) (c : CodePoint) (more : Text) : Option (Spot × Text) :=
  match s with
  | code word => readCode word c
  | comment after =>
    if isLineBreak c then some (if after then closed 0 true else code [], ['\n'])
    else some (s, [])
  | text size escaped broken gap =>
    if !escaped && isLineBreak c && startsWithMark more then none
    else if !escaped && (c = ' ' || isLineBreak c) then
      some (text (size + 1) false (broken || isLineBreak c) (gap.push c), [])
    else if !escaped && c = '"' then some (closed (size + 1) broken, gap.text ++ [c])
    else some (text (size + 1) (!escaped && c = '\\') broken (.blanks 0), gap.text ++ [c])
  | closed size broken =>
    if c = ':' then
      if broken ∨ maxNameSize < size then none else some (code [], [c])
    else if c = '#' then some (comment true, [])
    else if c = ' ' then some (closed (size + 1) broken, [c])
    else if isLineBreak c then some (closed (size + 1) true, ['\n'])
    else readCode [] c

/-- What stands in JSON for the rest of a document. -/
def rest (s : Spot) : Text → Option Text
  | [] =>
    match s with
    | code word => some (plainWord word.reverse)
    | _ => some []
  | c :: more => do
    let (next, done) ← s.step c more
    let others ← next.rest more
    return done ++ others

end Spot

/-- A settings file as JSON, if it keeps the rules. -/
def plainJson? (t : Text) : Option Text := (Spot.code []).rest t

end StyleVars.Settings
