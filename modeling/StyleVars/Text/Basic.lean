import StyleVars.Text.CodePoint

/-!
# Text

Style sheets, names, paths and messages are lists of code points, so that an offset counts code
points and a proof about text is a proof about lists.
-/

namespace StyleVars

/-- A sequence of code points. -/
abbrev Text := List CodePoint

end StyleVars

/-- The code points of a string. -/
def String.toText (s : String) : StyleVars.Text := s.toList.map .char

namespace StyleVars.Text

/-- The string of a text, in which U+FFFD stands for surrogates. -/
def toString (t : Text) : String := String.ofList (t.map fun c => c.char?.getD '\ufffd')

/-- The decimal digits of a natural number. -/
def ofNat (n : Nat) : Text := (Nat.toDigits 10 n).map .char

/-- The decimal digits of an integer, after a minus sign when it is negative. -/
def ofInt : Int → Text
  | .ofNat n => ofNat n
  | .negSucc n => '-' :: ofNat (n + 1)

/-- The value of a hexadecimal digit of either case. -/
def hexDigit? (c : CodePoint) : Option Nat :=
  let n := c.toNat
  if c.isDigit then some (n - 48)
  else if 97 ≤ n ∧ n ≤ 102 then some (n - 87)
  else if 65 ≤ n ∧ n ≤ 70 then some (n - 55)
  else none

/-- `n` in base sixteen, on at least `width` digits. -/
def hex (width n : Nat) : Text :=
  let digits := (Nat.toDigits 16 n).map .char
  List.replicate (width - digits.length) (.char '0') ++ digits

/-- The pieces between the occurrences of `sep`: always at least one. -/
def splitOn (sep : CodePoint) : Text → List Text
  | [] => [[]]
  | c :: r =>
    match splitOn sep r with
    | [] => [[c]]
    | piece :: rest => if c = sep then [] :: piece :: rest else (c :: piece) :: rest

/-- The pieces between the successive occurrences of the text `sep`, found from the left;
`held` is the current piece, last character first. -/
def splitOnText (sep : Text) (held : Text) (skip : Nat) : Text → List Text
  | [] => [held.reverse]
  | c :: r =>
    match skip with
    | k + 1 => splitOnText sep held k r
    | 0 =>
      if sep.isPrefixOf (c :: r) then held.reverse :: splitOnText sep [] (sep.length - 1) r
      else splitOnText sep (c :: held) 0 r

/-- The text `part` stands somewhere in a text. -/
def occurs (part : Text) : Text → Bool
  | [] => part.isEmpty
  | c :: r => part.isPrefixOf (c :: r) || occurs part r

/-- The pieces joined with `sep` between neighbours. -/
def join (sep : Text) : List Text → Text
  | [] => []
  | [piece] => piece
  | piece :: rest => piece ++ sep ++ join sep rest

/-- Every `old` replaced by `new`. -/
def replaceChar (old new : CodePoint) (t : Text) : Text := t.map fun c => if c = old then new else c

/-- `t` without the ending `suf`, when it has it. -/
def dropEnd? (suf t : Text) : Option Text :=
  if suf.isSuffixOf t then some (t.take (t.length - suf.length)) else none

/-- The part before the first `sep` and the part after it. -/
def splitFirst (sep : CodePoint) : Text → Option (Text × Text)
  | [] => none
  | c :: r =>
    if c = sep then some ([], r) else (splitFirst sep r).map fun (a, b) => (c :: a, b)

/-- The part before the last `sep` and the part after it. -/
def splitLast (sep : CodePoint) : Text → Option (Text × Text)
  | [] => none
  | c :: r =>
    match splitLast sep r with
    | some (a, b) => some (c :: a, b)
    | none => if c = sep then some ([], r) else none

/-- `t` without the leading and trailing characters of the class `p`. -/
def trimEnds (p : CodePoint → Bool) (t : Text) : Text :=
  ((t.dropWhile p).reverse.dropWhile p).reverse

/-- `t` without its trailing characters of the class `p`. -/
def trimRight (p : CodePoint → Bool) (t : Text) : Text := (t.reverse.dropWhile p).reverse

end StyleVars.Text
