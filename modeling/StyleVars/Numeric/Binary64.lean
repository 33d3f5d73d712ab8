/-!
# Binary floating point, exactly

The numbers of the binary64 format. The finite magnitudes, in ascending order, are numbered from
zero: the number of a magnitude is its rank. All of them are multiples of one unit, 2⁻¹⁰⁷⁴, so
arithmetic is done on whole numbers of units and rounded once, to the nearest magnitude and from the
middle to the even rank.
-/

namespace StyleVars

/-- How many ranks there are from one power of two to the next: 2⁵². -/
abbrev binade : Nat := 1 <<< 52

/-- How many finite magnitudes there are. -/
abbrev rankCount : Nat := 2047 * binade

/-- A number of the binary64 format, a finite one given by its sign and the rank of its magnitude.
-/
inductive Binary64
  | nan
  | infinite (negative : Bool)
  | finite (negative : Bool) (rank : Fin rankCount)
  deriving DecidableEq, Inhabited

namespace Binary64

/-- How many units make one: 2¹⁰⁷⁴. -/
def one : Nat := 1 <<< 1074

/-- A power of ten. -/
def powerOfTen (exponent : Nat) : Nat := Nat.pow 10 exponent

/-- The magnitude of a rank, in units. Below rank 2⁵³ ranks are one unit apart; after that the
distance doubles every 2⁵² ranks. -/
def unitsOfRank (rank : Nat) : Nat :=
  if rank < binade then rank else (binade + rank % binade) <<< (rank / binade - 1)

/-- The whole number nearest to `num / den`, from the middle the even one. -/
def roundHalfEven (num den : Nat) : Nat :=
  let q := num / den
  let r := num % den
  if 2 * r < den then q else if den < 2 * r then q + 1 else q + q % 2

/-- The rank nearest to the magnitude of `num / den` units; too large a magnitude gives a rank past
the last one. -/
def nearestRank (num den : Nat) : Nat :=
  let shift := Nat.log2 (num / den) - 52
  shift * binade + roundHalfEven num (den <<< shift)

/-- The number of a rank, infinite past the last one. -/
def ofRank (negative : Bool) (rank : Nat) : Binary64 :=
  if h : rank < rankCount then .finite negative ⟨rank, h⟩ else .infinite negative

/-- The number nearest to `num / den`. -/
def ofRatio (negative : Bool) (num den : Nat) : Binary64 :=
  ofRank negative (nearestRank (num * one) den)

/-- The number nearest to an integer over a natural number. -/
def ofQuotient (num : Int) (den : Nat) : Binary64 := ofRatio (num < 0) num.natAbs den

/-- The number nearest to an integer. -/
def ofInt (n : Int) : Binary64 := ofQuotient n 1

/-- The number nearest to `mantissa * 10 ^ exponent`. The first two cases only spare the powers of
ten that lie beyond all the magnitudes. -/
def ofDecimal (negative : Bool) (mantissa : Nat) (exponent : Int) : Binary64 :=
  let size : Int := (Nat.toDigits 10 mantissa).length + exponent
  if mantissa = 0 ∨ size < -330 then ofRank negative 0
  else if 310 < size then .infinite negative
  else if 0 ≤ exponent then ofRatio negative (mantissa * powerOfTen exponent.toNat) 1
  else ofRatio negative mantissa (powerOfTen (-exponent).toNat)

/-- The value of a finite number in units. -/
def units? : Binary64 → Option Int
  | .finite negative rank =>
    let size : Int := unitsOfRank rank
    some (if negative then -size else size)
  | _ => none

/-- Neither infinite nor no number at all. -/
def isFinite : Binary64 → Bool
  | .finite .. => true
  | _ => false

/-- The sum, rounded. Zero is negative only as the sum of negative numbers. -/
def add : Binary64 → Binary64 → Binary64
  | .finite s a, .finite t b =>
    let x : Int := if s then -unitsOfRank a else unitsOfRank a
    let y : Int := if t then -unitsOfRank b else unitsOfRank b
    let sum := x + y
    ofRank (if sum = 0 then s && t else sum < 0) (nearestRank sum.natAbs 1)
  | .infinite s, .finite .. => .infinite s
  | .finite .., .infinite t => .infinite t
  | .infinite s, .infinite t => if s = t then .infinite s else .nan
  | .nan, _ => .nan
  | _, .nan => .nan

/-- The product, rounded. -/
def mul : Binary64 → Binary64 → Binary64
  | .finite s a, .finite t b => ofRank (s != t) (nearestRank (unitsOfRank a * unitsOfRank b) one)
  | .infinite s, .finite t b => if b.val = 0 then .nan else .infinite (s != t)
  | .finite s a, .infinite t => if a.val = 0 then .nan else .infinite (s != t)
  | .infinite s, .infinite t => .infinite (s != t)
  | .nan, _ => .nan
  | _, .nan => .nan

instance : Add Binary64 := ⟨add⟩

instance : Mul Binary64 := ⟨mul⟩

/-- The order of values; what is no number stands in no order. -/
def less (x y : Binary64) : Bool :=
  match x, y with
  | .nan, _ => false
  | _, .nan => false
  | .infinite s, .infinite t => s && !t
  | .infinite s, .finite .. => s
  | .finite .., .infinite t => !t
  | .finite s a, .finite t b =>
    let x : Int := if s then -unitsOfRank a else unitsOfRank a
    let y : Int := if t then -unitsOfRank b else unitsOfRank b
    x < y

/-- Equality of values: the two zeros are equal, and what is no number equals nothing. -/
def sameValue (x y : Binary64) : Bool :=
  match x, y with
  | .infinite s, .infinite t => s = t
  | .finite s a, .finite t b => a = b && (s = t || a.val = 0)
  | _, _ => false

/-- The largest integer not above a finite number. -/
def floor? (x : Binary64) : Option Int := x.units?.map fun u => u / (one : Int)

/-- The integer that a finite number is, when it is one. -/
def toInt? (x : Binary64) : Option Int :=
  x.units?.bind fun u => if u % (one : Int) = 0 then some (u / (one : Int)) else none

end Binary64
end StyleVars
