import StyleVars.Failure

/-!
# Rounding to integers

A half is rounded up: the result is the largest integer not above the number plus one half, the sum
being itself rounded as every sum is.
-/

namespace StyleVars

/-- The number nearest to an integer; there is none when it would be infinite. -/
def realOfInt (n : Int) : Except Failure Binary64 :=
  let x := Binary64.ofInt n
  if x.isFinite then .ok x else .error .integerTooLarge

/-- The nearest integer, a half being rounded up. -/
def roundHalfUp (x : Binary64) : Except Failure Int :=
  match x + .ofRatio false 1 2 with
  | .nan => .error .roundsNan
  | .infinite _ => .error .roundsInfinity
  | y@(.finite ..) => .ok (y.floor?.getD 0)

end StyleVars
