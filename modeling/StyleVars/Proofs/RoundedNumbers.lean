import StyleVars.Numeric.Rounding
import Mathlib.Algebra.Order.Ring.Nat
import Mathlib.Tactic.Ring
import Mathlib.Tactic.SplitIfs

/-!
# Numbers that have a nearest integer

A magnitude is rounded to a finite one when it lies less than half a step above the largest of them
(`nearestRank_lt`). The sum with one half is far below that bound for every finite number, so each
of them has a nearest integer (`isOk_roundHalfUp`). For an integer that sum is exact below 2⁵²,
where the nearest integer is the number itself (`roundHalfUp_of_small`); from there on it may be
rounded, but it stays large (`roundHalfUp_of_large`).
-/

namespace StyleVars

namespace Binary64

/-! ## Magnitudes and their ranks -/

theorem binade_eq : binade = 2 ^ 52 := rfl

/-- Below the middle between `n` and the next whole number nothing is rounded to more than `n`. -/
theorem roundHalfEven_le {num den n : Nat} (h : 2 * num < (2 * n + 1) * den) :
    roundHalfEven num den ≤ n := by
  have hden : 0 < den := Nat.pos_of_ne_zero fun hzero => by simp [hzero] at h
  have hparts : den * (num / den) + num % den = num := Nat.div_add_mod num den
  have hrest : num % den < den := Nat.mod_lt num hden
  have hquotient : num / den ≤ n := by
    refine Nat.le_of_lt_succ ((Nat.div_lt_iff_lt_mul hden).mpr ?_)
    rw [Nat.succ_eq_add_one]
    have hstep : (2 * n + 1) * den + den = 2 * ((n + 1) * den) := by ring
    omega
  unfold roundHalfEven
  obtain hlt | heq := Nat.lt_or_eq_of_le hquotient
  · simp only
    split_ifs <;> omega
  · -- the quotient is `n` itself, so the remainder is less than one half
    rw [heq] at hparts ⊢
    have hmiddle : (2 * n + 1) * den = 2 * (den * n) + den := by ring
    have hhalf : 2 * (num % den) < den := by omega
    simp [hhalf]

/-- Ranks double their distance up to the exponent `top`: a magnitude that lies less than half a
step above the last rank of that exponent has a rank up to there. -/
theorem nearestRank_lt {num den top : Nat} (h : 2 * num < (2 ^ 54 - 1) * (den * 2 ^ top)) :
    nearestRank num den < (top + 2) * binade := by
  have hden : 0 < den := Nat.pos_of_ne_zero fun hzero => by simp [hzero] at h
  have hlog : num / den < 2 ^ (Nat.log2 (num / den) + 1) := Nat.lt_log2_self
  rw [nearestRank, binade_eq]
  generalize hshift : Nat.log2 (num / den) - 52 = shift
  obtain hlow | hhigh := Nat.lt_or_ge shift top
  · have hpower : 2 ^ (Nat.log2 (num / den) + 1) ≤ 2 ^ 53 * 2 ^ shift := by
      rw [← Nat.pow_add]
      exact Nat.pow_le_pow_right (by decide) (by omega)
    have hnum : num < 2 ^ 53 * 2 ^ shift * den :=
      (Nat.div_lt_iff_lt_mul hden).mp (Nat.lt_of_lt_of_le hlog hpower)
    have hround : roundHalfEven num (den <<< shift) ≤ 2 ^ 53 := by
      apply roundHalfEven_le
      rw [Nat.shiftLeft_eq]
      have hmiddle : (2 * 2 ^ 53 + 1) * (den * 2 ^ shift) =
          2 * (2 ^ 53 * 2 ^ shift * den) + den * 2 ^ shift := by ring
      omega
    omega
  · have hnum : num < 2 ^ (53 + top) * den := by
      have hpower : 2 ^ (53 + top) * den = 2 ^ 53 * (den * 2 ^ top) := by ring
      omega
    have htop : shift = top := by
      have hbound : Nat.log2 (num / den) < 53 + top := by
        by_cases hzero : num / den = 0
        · rw [hzero, Nat.log2_zero]
          omega
        · exact (Nat.log2_lt hzero).mpr ((Nat.div_lt_iff_lt_mul hden).mpr hnum)
      omega
    have hround : roundHalfEven num (den <<< shift) ≤ 2 ^ 53 - 1 := by
      apply roundHalfEven_le
      rw [Nat.shiftLeft_eq, htop]
      exact h
    omega

theorem unitsOfRank_le {rank top : Nat} (h : rank < (top + 2) * binade) :
    unitsOfRank rank ≤ (2 ^ 53 - 1) * 2 ^ top := by
  rw [binade_eq] at h
  rw [unitsOfRank, binade_eq]
  have hpower : 1 ≤ 2 ^ top := Nat.one_le_two_pow
  split_ifs with hlow
  · exact Nat.le_trans (by omega) (Nat.le_mul_of_pos_right (2 ^ 53 - 1) hpower)
  · have hrest : rank % 2 ^ 52 < 2 ^ 52 := Nat.mod_lt rank (by decide)
    have hquotient : rank / 2 ^ 52 < top + 2 := (Nat.div_lt_iff_lt_mul (by decide)).mpr h
    rw [Nat.shiftLeft_eq]
    exact Nat.mul_le_mul (by omega) (Nat.pow_le_pow_right (by decide) (by omega))

/-! ## Sums and products that stay finite -/

theorem add_finite (s t : Bool) (a b : Fin rankCount) :
    ∃ negative, finite s a + finite t b = ofRank negative (nearestRank
      ((if s then -(unitsOfRank a : Int) else unitsOfRank a) +
        (if t then -(unitsOfRank b : Int) else unitsOfRank b)).natAbs 1) := by
  change ∃ negative, add (finite s a) (finite t b) = _
  rw [add]
  exact ⟨_, rfl⟩

theorem mul_finite (s t : Bool) (a b : Fin rankCount) :
    finite s a * finite t b =
      ofRank (s != t) (nearestRank (unitsOfRank a * unitsOfRank b) one) := by
  change mul (finite s a) (finite t b) = _
  rw [mul]

theorem half_eq : ofRatio false 1 2 = .finite false ⟨1022 * binade, by decide⟩ := by
  decide +kernel

theorem hundred_eq : ofInt 100 = .finite false ⟨1028 * binade + 100 <<< 46, by decide⟩ := by
  decide +kernel

theorem unitsOfRank_half : 2 * unitsOfRank (1022 * binade) = one := by
  decide +kernel

theorem unitsOfRank_hundred : unitsOfRank (1028 * binade + 100 <<< 46) = 100 * one := by
  decide +kernel

/-- The largest magnitudes have the exponent 2045, and there is much room between one and them. -/
theorem exists_top : ∃ top, (top + 2) * binade = rankCount ∧ 200 * one < 2 ^ top :=
  ⟨2045, by decide, by decide +kernel⟩

theorem isFinite_ofRank {negative : Bool} {num den top : Nat}
    (htop : (top + 2) * binade = rankCount)
    (h : 2 * num < (2 ^ 54 - 1) * (den * 2 ^ top)) :
    (ofRank negative (nearestRank num den)).isFinite := by
  rw [ofRank, dif_pos (Nat.lt_of_lt_of_eq (nearestRank_lt h) htop)]
  rfl

theorem isFinite_add_half {x : Binary64} (h : x.isFinite) : (x + ofRatio false 1 2).isFinite := by
  cases x with
  | nan => exact nomatch h
  | infinite s => exact nomatch h
  | finite s a =>
    obtain ⟨top, htop, hone⟩ := exists_top
    have hunits : unitsOfRank a ≤ (2 ^ 53 - 1) * 2 ^ top :=
      unitsOfRank_le (Nat.lt_of_lt_of_eq a.isLt htop.symm)
    have hhalf := unitsOfRank_half
    obtain ⟨negative, hsum⟩ := add_finite s false a ⟨1022 * binade, by decide⟩
    rw [half_eq, hsum]
    refine isFinite_ofRank htop ?_
    generalize unitsOfRank a = u at *
    generalize unitsOfRank (1022 * binade) = half at *
    have hsize : ((if s = true then -(u : Int) else u) + (half : Int)).natAbs ≤ u + half := by
      split <;> omega
    simp only [Bool.false_eq_true, if_false]
    omega

theorem isFinite_mul_hundred {s : Bool} {a : Fin rankCount} (h : unitsOfRank a ≤ one) :
    (finite s a * ofInt 100).isFinite := by
  obtain ⟨top, htop, hone⟩ := exists_top
  have hpos : 0 < one := by decide +kernel
  rw [hundred_eq, mul_finite]
  refine isFinite_ofRank htop ?_
  simp only [unitsOfRank_hundred]
  calc 2 * (unitsOfRank a * (100 * one)) = 200 * unitsOfRank a * one := by ring
    _ ≤ 200 * one * one := Nat.mul_le_mul_right _ (Nat.mul_le_mul_left _ h)
    _ < 2 ^ top * one := (Nat.mul_lt_mul_right hpos).mpr hone
    _ = 1 * (one * 2 ^ top) := by ring
    _ ≤ (2 ^ 54 - 1) * (one * 2 ^ top) := Nat.mul_le_mul_right _ (by decide)

/-- From zero to one, both included. -/
def isAlpha (x : Binary64) : Bool := x.isFinite && !x.less (.ofInt 0) && !(ofInt 1).less x

theorem exists_of_isAlpha {x : Binary64} (h : x.isAlpha) :
    ∃ s a, x = .finite s a ∧ unitsOfRank a ≤ one := by
  have hzero : ofInt 0 = .finite false ⟨0, by decide⟩ := by decide +kernel
  have hone : ofInt 1 = .finite false ⟨1023 * binade, by decide⟩ := by decide +kernel
  have hunits : unitsOfRank (1023 * binade) = one := by decide +kernel
  have hnone : unitsOfRank 0 = 0 := by decide
  simp only [isAlpha, Bool.and_eq_true, Bool.not_eq_true'] at h
  obtain ⟨⟨hfinite, hbelow⟩, habove⟩ := h
  cases x with
  | nan => exact nomatch hfinite
  | infinite s => exact nomatch hfinite
  | finite s a =>
    refine ⟨s, a, rfl, ?_⟩
    rw [hzero] at hbelow
    rw [hone] at habove
    simp only [less, hunits, hnone, decide_eq_false_iff_not] at hbelow habove
    cases s
    · simp only [Bool.false_eq_true, if_false] at habove
      omega
    · simp only [if_true] at hbelow
      omega

/-! ## Numbers that are integers -/

/-- One half is a power of two in units. -/
theorem exists_half : ∃ k, one = 2 * 2 ^ k :=
  ⟨1073, by decide +kernel⟩

/-- A magnitude with no more than 53 digits in base two is not rounded. -/
theorem unitsOfRank_nearestRank {num : Nat} (h : 2 ^ (Nat.log2 num - 52) ∣ num) :
    unitsOfRank (nearestRank num 1) = num := by
  rw [nearestRank, Nat.div_one, unitsOfRank, binade_eq, Nat.shiftLeft_eq, Nat.one_mul]
  generalize hshift : Nat.log2 num - 52 = shift at h ⊢
  obtain ⟨q, rfl⟩ := h
  have hpower : 0 < 2 ^ shift := Nat.two_pow_pos shift
  have hround : roundHalfEven (2 ^ shift * q) (2 ^ shift) = q := by
    simp [roundHalfEven, Nat.mul_div_cancel_left q hpower, hpower]
  rw [hround]
  obtain hzero | hpos := Nat.eq_zero_or_pos shift
  · rw [hzero, Nat.zero_mul, Nat.zero_add, Nat.pow_zero, Nat.one_mul]
    split_ifs with hlow
    · rfl
    · have hlog : Nat.log2 q ≤ 52 := by
        rw [hzero, Nat.pow_zero, Nat.one_mul] at hshift
        omega
      have hhigh : q < 2 ^ 53 :=
        Nat.lt_of_lt_of_le Nat.lt_log2_self (Nat.pow_le_pow_right (by decide) (by omega))
      have hexponent : q / 2 ^ 52 = 1 := by omega
      rw [hexponent, Nat.sub_self, Nat.shiftLeft_zero]
      omega
  · -- the leading digit stands just in front of the 52 digits that a rank tells
    have hne : 2 ^ shift * q ≠ 0 := by
      intro hnone
      rw [hnone, Nat.log2_zero] at hshift
      omega
    have hlog : Nat.log2 (2 ^ shift * q) = 52 + shift := by omega
    have hlow : 2 ^ 52 ≤ q := by
      have hself := Nat.log2_self_le hne
      rw [hlog, Nat.pow_add, Nat.mul_comm] at hself
      exact Nat.le_of_mul_le_mul_left hself hpower
    have hhigh : q < 2 ^ 53 := by
      have hself : 2 ^ shift * q < 2 ^ (Nat.log2 (2 ^ shift * q) + 1) := Nat.lt_log2_self
      rw [hlog, Nat.add_right_comm, Nat.pow_add, Nat.mul_comm] at hself
      exact Nat.lt_of_mul_lt_mul_right hself
    have hquotient : (shift * 2 ^ 52 + q) / 2 ^ 52 = shift + 1 := by omega
    have hrest : (shift * 2 ^ 52 + q) % 2 ^ 52 = q - 2 ^ 52 := by omega
    rw [if_neg (by omega), hquotient, hrest, Nat.add_sub_cancel, Nat.shiftLeft_eq,
      Nat.add_sub_cancel' hlow, Nat.mul_comm]

/-- Rounding does not go below a power of two. -/
theorem le_unitsOfRank_nearestRank {num e : Nat} (h : 2 ^ (52 + e) ≤ num) :
    2 ^ (52 + e) ≤ unitsOfRank (nearestRank num 1) := by
  have hne : num ≠ 0 := Nat.ne_of_gt (Nat.lt_of_lt_of_le (Nat.two_pow_pos _) h)
  have hlog : 52 + e ≤ Nat.log2 num := (Nat.le_log2 hne).mpr h
  rw [nearestRank, Nat.div_one, Nat.shiftLeft_eq, Nat.one_mul]
  generalize hshift : Nat.log2 num - 52 = shift
  have hself : 2 ^ 52 * 2 ^ shift ≤ num := by
    rw [← Nat.pow_add, ← hshift, Nat.add_sub_cancel' (by omega)]
    exact Nat.log2_self_le hne
  have hround : 2 ^ 52 ≤ roundHalfEven num (2 ^ shift) := by
    have hquotient : 2 ^ 52 ≤ num / 2 ^ shift :=
      (Nat.le_div_iff_mul_le (Nat.two_pow_pos shift)).mpr hself
    unfold roundHalfEven
    simp only
    split_ifs <;> omega
  generalize roundHalfEven num (2 ^ shift) = q at hround
  rw [unitsOfRank, binade_eq, if_neg (by omega), Nat.shiftLeft_eq, Nat.pow_add]
  refine Nat.mul_le_mul (Nat.le_add_right _ _) (Nat.pow_le_pow_right (by decide) ?_)
  have hexponent : shift + 1 ≤ (shift * 2 ^ 52 + q) / 2 ^ 52 :=
    (Nat.le_div_iff_mul_le (by decide)).mpr (by omega)
  omega

/-- The value of a finite number in units. -/
def signedUnits (s : Bool) (a : Fin rankCount) : Int :=
  if s then -(unitsOfRank a : Int) else unitsOfRank a

/-- What an integer is in units. -/
theorem signedUnits_of_toInt? {s : Bool} {a : Fin rankCount} {n : Int}
    (h : (finite s a).toInt? = some n) : signedUnits s a = n * one := by
  have hunits : (finite s a).units? = some (signedUnits s a) := rfl
  rw [toInt?, hunits, Option.bind_some] at h
  split_ifs at h with hrest
  rw [← Option.some.inj h]
  exact (Int.ediv_mul_cancel (Int.dvd_of_emod_eq_zero hrest)).symm

/-- The sum with one half is rounded by its magnitude. -/
theorem add_half_eq {k : Nat} (hk : one = 2 * 2 ^ k) (s : Bool) (a : Fin rankCount) :
    finite s a + ofRatio false 1 2 = ofRank (signedUnits s a + 2 ^ k < 0)
      (nearestRank (signedUnits s a + 2 ^ k).natAbs 1) := by
  have hhalf : (unitsOfRank (1022 * binade) : Int) = 2 ^ k := by
    have htwice := unitsOfRank_half
    rw [hk] at htwice
    exact_mod_cast Nat.eq_of_mul_eq_mul_left (by decide) htwice
  rw [half_eq]
  change add (finite s a) _ = _
  rw [add]
  simp only [Bool.false_eq_true, if_false, hhalf, Bool.and_false]
  rw [← signedUnits]
  by_cases hzero : signedUnits s a + 2 ^ k = 0
  · rw [if_pos hzero, hzero]
    rfl
  · rw [if_neg hzero]

end Binary64

/-! ## Nearest integers -/

theorem isOk_roundHalfUp {x : Binary64} (h : x.isFinite) : (roundHalfUp x).isOk := by
  have hsum := Binary64.isFinite_add_half h
  unfold roundHalfUp
  cases hy : x + .ofRatio false 1 2 with
  | nan => rw [hy] at hsum; exact nomatch hsum
  | infinite s => rw [hy] at hsum; exact nomatch hsum
  | finite s a => rfl

open Binary64

section Integral

variable {x : Binary64} {n m : Int} (hx : x.toInt? = some n) (hm : roundHalfUp x = .ok m)

include hx hm

/-- For an integer the sum with one half is an odd number of halves, which may have to be rounded.
-/
theorem roundHalfUp_of_toInt? {k : Nat} (hk : one = 2 * 2 ^ k) :
    m = (if n < 0 then -(unitsOfRank (nearestRank ((2 * n + 1).natAbs * 2 ^ k) 1) : Int)
      else unitsOfRank (nearestRank ((2 * n + 1).natAbs * 2 ^ k) 1)) / (one : Int) := by
  cases x with
  | nan => exact nomatch hx
  | infinite s => exact nomatch hx
  | finite s a =>
    have hhalf : (0 : Int) < 2 ^ k := Int.pow_pos (by decide)
    have hsum : signedUnits s a + 2 ^ k = (2 * n + 1) * 2 ^ k := by
      rw [signedUnits_of_toInt? hx, hk]
      push_cast
      ring
    have hsign : (2 * n + 1) * (2 : Int) ^ k < 0 ↔ n < 0 := by
      constructor
      · intro hneg
        by_contra hpos
        exact absurd (Int.mul_nonneg (show 0 ≤ 2 * n + 1 by omega) hhalf.le) (by omega)
      · intro hneg
        exact Int.mul_neg_of_neg_of_pos (show 2 * n + 1 < 0 by omega) hhalf
    have habs : ((2 : Int) ^ k).natAbs = 2 ^ k := Int.natAbs_pow 2 k
    rw [roundHalfUp, add_half_eq hk, hsum, Int.natAbs_mul, habs, ofRank] at hm
    split_ifs at hm with hrank
    rw [← Except.ok.inj hm]
    simp [floor?, units?, hsign]

/-- Integers below 2⁵² are their own nearest integers. -/
theorem roundHalfUp_of_small (hn : n.natAbs < 2 ^ 52) : m = n := by
  obtain ⟨k, hk⟩ := exists_half
  have hpower : 0 < 2 ^ k := Nat.two_pow_pos k
  have hexact : unitsOfRank (nearestRank ((2 * n + 1).natAbs * 2 ^ k) 1) =
      (2 * n + 1).natAbs * 2 ^ k := by
    have hne : (2 * n + 1).natAbs * 2 ^ k ≠ 0 :=
      Nat.mul_ne_zero (by omega) (Nat.ne_of_gt hpower)
    have hlog : Nat.log2 ((2 * n + 1).natAbs * 2 ^ k) < 53 + k := by
      rw [Nat.log2_lt hne, Nat.pow_add]
      exact (Nat.mul_lt_mul_right hpower).mpr (by omega)
    apply unitsOfRank_nearestRank
    exact Dvd.dvd.mul_left (Nat.pow_dvd_pow 2 (by omega)) _
  have hvalue : (if n < 0 then -(((2 * n + 1).natAbs * 2 ^ k : Nat) : Int)
      else ((2 * n + 1).natAbs * 2 ^ k : Nat)) = 2 ^ k + one * n := by
    have habs : ((2 * n + 1).natAbs : Int) = if n < 0 then -(2 * n + 1) else 2 * n + 1 := by
      split_ifs <;> omega
    rw [Nat.cast_mul, habs, hk]
    push_cast
    split_ifs <;> ring
  have hlt : (2 ^ k : Int) < one := by
    rw [hk]
    push_cast
    exact_mod_cast (show 2 ^ k < 2 * 2 ^ k by omega)
  rw [roundHalfUp_of_toInt? hx hm hk, hexact, hvalue, Int.add_mul_ediv_left _ _ (by omega),
    Int.ediv_eq_zero_of_lt (Int.pow_nonneg (by decide)) hlt, Int.zero_add]

/-- Integers from 2⁵² on are rounded, but they keep their sign and stay large. -/
theorem roundHalfUp_of_large (hn : 2 ^ 52 ≤ n.natAbs) :
    if n < 0 then m ≤ -2 ^ 51 else 2 ^ 51 ≤ m := by
  obtain ⟨k, hk⟩ := exists_half
  have hbound : 2 ^ (52 + k) ≤ (2 * n + 1).natAbs * 2 ^ k := by
    rw [Nat.pow_add]
    exact Nat.mul_le_mul_right _ (by omega)
  have hpower : 2 ^ (52 + k) = 2 ^ 51 * one := by
    rw [hk, Nat.pow_add]
    ring
  have hrounded := le_unitsOfRank_nearestRank hbound
  have hone : (0 : Int) < one := by
    have := Nat.two_pow_pos k
    omega
  rw [hpower] at hrounded
  rw [roundHalfUp_of_toInt? hx hm hk]
  generalize unitsOfRank _ = u at hrounded ⊢
  split_ifs
  · refine Int.ediv_le_of_le_mul hone ?_
    push_cast at *
    omega
  · exact (Int.le_ediv_iff_mul_le hone).mpr (by exact_mod_cast hrounded)

end Integral

end StyleVars
