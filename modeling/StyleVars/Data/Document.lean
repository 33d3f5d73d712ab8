import StyleVars.Data.JsonReader
import StyleVars.Text.Utf8

/-!
# Documents

A document that comes as bytes. It may be encoded in units of one, two or four bytes, which an order
mark may tell. Without one, since it starts with ASCII characters, the zeros among its first bytes
tell the units and their order.
-/

namespace StyleVars.Document

/-- In which order the bytes of a unit come. -/
inductive ByteOrder
  | bigEndian
  | littleEndian

/-- How a text is encoded. -/
inductive Encoding
  | utf8
  | utf16 (order : ByteOrder)
  | utf32 (order : ByteOrder)

namespace Encoding

/-- The encoding that the first bytes of a document tell, and the bytes after an order mark. -/
def ofBytes (bytes : List Nat) : Encoding × List Nat :=
  match bytes with
  | 0 :: 0 :: 0xFE :: 0xFF :: rest => (utf32 .bigEndian, rest)
  | 0xFF :: 0xFE :: 0 :: 0 :: rest => (utf32 .littleEndian, rest)
  | 0xFE :: 0xFF :: rest => (utf16 .bigEndian, rest)
  | 0xFF :: 0xFE :: rest => (utf16 .littleEndian, rest)
  | 0xEF :: 0xBB :: 0xBF :: rest => (utf8, rest)
  | 0 :: 0 :: _ :: _ :: _ => (utf32 .bigEndian, bytes)
  | 0 :: _ :: _ :: _ :: _ => (utf16 .bigEndian, bytes)
  | _ :: 0 :: 0 :: 0 :: _ => (utf32 .littleEndian, bytes)
  | _ :: 0 :: _ :: _ :: _ => (utf16 .littleEndian, bytes)
  | [0, _] => (utf16 .bigEndian, bytes)
  | [_, 0] => (utf16 .littleEndian, bytes)
  | _ => (utf8, bytes)

end Encoding

/-- The unit of two bytes. -/
def unitOfPair (order : ByteOrder) (a b : Nat) : Nat :=
  match order with
  | .bigEndian => a * 0x100 + b
  | .littleEndian => b * 0x100 + a

/-- The units of two bytes, when none is left over. -/
def units? (order : ByteOrder) : List Nat → Option (List Nat)
  | [] => some []
  | [_] => none
  | a :: b :: rest => (units? order rest).map (unitOfPair order a b :: ·)

/-- The code points of four bytes, when none is left over and none is past the last one. -/
def codePoints? (order : ByteOrder) : List Nat → Option (List Nat)
  | [] => some []
  | a :: b :: c :: d :: rest =>
    let first := unitOfPair order a b
    let second := unitOfPair order c d
    let n :=
      match order with
      | .bigEndian => first * 0x10000 + second
      | .littleEndian => second * 0x10000 + first
    if n < 0x110000 then (codePoints? order rest).map (n :: ·) else none
  | _ => none

/-- The text of a document, if its bytes are well-formed. -/
def decode? (bytes : List Nat) : Option Text :=
  match Encoding.ofBytes bytes with
  | (.utf8, rest) => (Utf8.decode rest).toOption
  | (.utf16 order, rest) => (units? order rest).map Surrogate.textOfUnits
  | (.utf32 order, rest) => (codePoints? order rest).map (·.map CodePoint.ofNat)

end StyleVars.Document
