import StyleVars.Text.Basic
import StyleVars.Numeric.Number

/-!
# Keys

The keys of mappings. Documents have texts for keys; a mapping that is made from a list of entries
may have any scalar for one. Keys are the same when they are equal as values, so that a number is
the same key however it is written.
-/

namespace StyleVars.Data

/-- A key of a mapping. -/
inductive Key
  | null
  | bool (value : Bool)
  | int (value : Int)
  | real (value : Binary64)
  | text (value : Text)
  deriving DecidableEq, Inhabited

namespace Key

/-- The number that a key stands for; the truth values stand for one and zero. -/
def number? : Key → Option Number
  | bool b => some (.int (if b then 1 else 0))
  | int n => some (.int n)
  | real x => some (.ofBinary64 x)
  | null | text _ => none

/-- The text that a key is. -/
def text? : Key → Option Text
  | text t => some t
  | _ => none

/-- Two keys are the same one. -/
def same (a b : Key) : Bool :=
  match a.number?, b.number? with
  | some m, some n => m = n
  | none, none => a = b
  | _, _ => false

end Key
end StyleVars.Data
