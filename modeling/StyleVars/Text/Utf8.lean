import StyleVars.Failure

/-!
# UTF-8

Bytes are decoded strictly: overlong forms, surrogates and code points past the last one are
refused. A failure names the bytes that cannot belong to any character, and the first reason against
them.
-/

namespace StyleVars.Utf8

/-- A byte that continues a character. -/
def isContinuation (b : Nat) : Bool := 0x80 ≤ b && b < 0xC0

/-- How many bytes the character has that starts with the given byte; zero for no character. -/
def width (b : Nat) : Nat :=
  if b < 0x80 then 1 else if b < 0xC2 then 0 else if b < 0xE0 then 2
  else if b < 0xF0 then 3 else if b < 0xF5 then 4 else 0

/-- The second byte of a character, after the given first one. -/
def isSecond (first b : Nat) : Bool :=
  isContinuation b &&
    (first != 0xE0 || 0xA0 ≤ b) && (first != 0xED || b < 0xA0) &&
    (first != 0xF0 || 0x90 ≤ b) && (first != 0xF4 || b < 0x90)

/-- How many of the bytes after the first one can belong to its character, at most `limit`. -/
def followers (first limit : Nat) (rest : List Nat) : Nat :=
  match rest with
  | [] => 0
  | b :: more =>
    if limit = 0 ∨ ¬isSecond first b then 0
    else 1 + ((more.take (limit - 1)).takeWhile isContinuation).length

/-- The code point of a character of the given width. -/
def codePoint (width first : Nat) (rest : List Nat) : Nat :=
  let low := if width = 1 then first else first % (0x80 >>> width)
  (rest.take (width - 1)).foldl (fun n b => n * 64 + b % 64) low

/-- Decodes the bytes from position `at` on; `skip` of them belong to a character already decoded.
-/
def decodeFrom (position skip : Nat) : List Nat → Except Failure Text
  | [] => .ok []
  | b :: rest =>
    match skip with
    | k + 1 => decodeFrom (position + 1) k rest
    | 0 =>
      let w := width b
      if w = 0 then .error (.encoding b position (position + 1) .startByte)
      else
        let found := followers b (w - 1) rest
        if found + 1 = w then
          (decodeFrom (position + 1) (w - 1) rest).map (CodePoint.ofNat (codePoint w b rest) :: ·)
        else
          let problem : EncodingProblem :=
            if rest.length = found then .truncated else .continuationByte
          .error (.encoding b position (position + 1 + found) problem)

/-- The text that the bytes encode. -/
def decode (bytes : List Nat) : Except Failure Text := decodeFrom 0 0 bytes

end StyleVars.Utf8
