import Stencil.Number.Binary64

/-!
Where rounding to 64 bits ends. A quotient is rounded to infinity from halfway between the
greatest finite number and the next power of two on, the halfway point itself included, because
the greatest finite number has an odd significand; everything below is rounded to a finite number.
-/
namespace Stencil

theorem twoTo_le_twoTo {low high : Nat} (le : low ≤ high) : twoTo low ≤ twoTo high :=
  Nat.pow_le_pow_right (by decide) le

theorem tenTo_le_tenTo {low high : Nat} (le : low ≤ high) : tenTo low ≤ tenTo high :=
  Nat.pow_le_pow_right (by decide) le

theorem twoTo_le_tenTo (exponent : Nat) : twoTo (3 * exponent) ≤ tenTo exponent :=
  Nat.le_trans (Nat.le_of_eq (Nat.pow_mul 2 3 exponent)) (Nat.pow_le_pow_left (by decide) exponent)

theorem twoTo_log2_le {number : Nat} (nonzero : number ≠ 0) : twoTo number.log2 ≤ number :=
  Nat.log2_self_le nonzero

theorem lt_twoTo_log2 (number : Nat) : number < twoTo (number.log2 + 1) :=
  Nat.lt_log2_self

namespace Binary64

/-- Halfway from the greatest finite number to the power of two above it. -/
def overflowBound : Nat := twoTo 1024 - twoTo 970

-- The greatest finite number has 53 binary digits, all of them ones.
example : 2 * overflowBound = (twoTo 53 - 1) * twoTo 971 + twoTo 1024 := by decide +kernel

section
variable {numerator denominator : Nat}

theorem nearestQuotient_le {limit : Nat} (below : numerator < denominator * limit) :
    nearestQuotient numerator denominator ≤ limit := by
  have quotient : numerator / denominator < limit := Nat.div_lt_of_lt_mul below
  unfold nearestQuotient
  grind

theorem le_nearestQuotient {limit : Nat} (positive : 0 < denominator)
    (reached : denominator * limit ≤ numerator) :
    limit ≤ nearestQuotient numerator denominator := by
  have quotient : limit ≤ numerator / denominator :=
    (Nat.le_div_iff_mul_le positive).mpr (Nat.mul_comm denominator limit ▸ reached)
  unfold nearestQuotient
  grind

/-- The number after an odd one is reached from halfway on, the halfway point included. -/
theorem odd_lt_nearestQuotient_iff {limit : Nat} (odd : limit % 2 = 1) (positive : 0 < denominator) :
    limit < nearestQuotient numerator denominator ↔
      denominator * (2 * limit + 1) ≤ 2 * numerator := by
  have division := Nat.div_add_mod numerator denominator
  have rest := Nat.mod_lt numerator positive
  have halfway : denominator * (2 * limit + 1) = 2 * (denominator * limit) + denominator := by
    rw [Nat.mul_add, Nat.mul_left_comm, Nat.mul_one]
  rw [halfway, nearestQuotient]
  generalize numerator / denominator = quotient at *
  generalize numerator % denominator = left at *
  rcases Nat.lt_trichotomy quotient limit with low | rfl | high
  · have product : denominator * (quotient + 1) ≤ denominator * limit :=
      Nat.mul_le_mul_left _ low
    rw [Nat.mul_add, Nat.mul_one] at product
    grind
  · grind
  · have product : denominator * (limit + 1) ≤ denominator * quotient :=
      Nat.mul_le_mul_left _ high
    rw [Nat.mul_add, Nat.mul_one] at product
    grind

/-- Two numbers differ as their binary digits do, where one has more of them. -/
theorem mul_twoTo_lt {low high : Nat} (nonzero : high ≠ 0) {lowPlaces highPlaces : Nat}
    (apart : low.log2 + lowPlaces < high.log2 + highPlaces) :
    low * twoTo lowPlaces < high * twoTo highPlaces :=
  calc low * twoTo lowPlaces
      < twoTo (low.log2 + 1) * twoTo lowPlaces :=
        Nat.mul_lt_mul_of_pos_right (lt_twoTo_log2 low) (twoTo_pos _)
    _ = twoTo (low.log2 + 1 + lowPlaces) := (twoTo_add _ _).symm
    _ ≤ twoTo (high.log2 + highPlaces) := twoTo_le_twoTo (by omega)
    _ = twoTo high.log2 * twoTo highPlaces := twoTo_add _ _
    _ ≤ high * twoTo highPlaces := Nat.mul_le_mul_right _ (twoTo_log2_le nonzero)

theorem mul_twoTo_shift (up down shift : Nat) :
    denominator * twoTo (up + shift) ≤ numerator * twoTo (down + shift) ↔
      denominator * twoTo up ≤ numerator * twoTo down := by
  rw [twoTo_add, twoTo_add, ← Nat.mul_assoc, ← Nat.mul_assoc]
  exact Nat.mul_le_mul_right_iff (twoTo_pos shift)

/-- The logarithm is found from those of the two numbers, which leave one place open. -/
theorem le_floorLog_iff (nonzero : numerator ≠ 0) (positive : 0 < denominator) (up down : Nat) :
    (up : Int) - down ≤ floorLog numerator denominator ↔
      denominator * twoTo up ≤ numerator * twoTo down := by
  have more : denominator.log2 + up < numerator.log2 + down →
      denominator * twoTo up < numerator * twoTo down := mul_twoTo_lt nonzero
  have fewer : numerator.log2 + down < denominator.log2 + up →
      numerator * twoTo down < denominator * twoTo up := mul_twoTo_lt (Nat.ne_of_gt positive)
  simp only [floorLog]
  generalize numerator.log2 = first at *
  generalize denominator.log2 = second at *
  rcases Nat.lt_trichotomy (second + up) (first + down) with below | same | above
  · simp only [Nat.le_of_lt (more below), iff_true]
    split <;> omega
  -- Here the logarithms leave it open, and the two products are compared as the definition does,
  -- but for a power of two on both sides.
  · obtain ⟨shift, rfl, rfl⟩ : ∃ shift : Nat,
        up = ((first : Int) - second).toNat + shift ∧
          down = (-((first : Int) - second)).toNat + shift :=
      ⟨min up down, by omega, by omega⟩
    rw [mul_twoTo_shift]
    split <;> omega
  · simp only [Nat.not_le_of_lt (fewer above), iff_false]
    split <;> omega

def scaledSignificand (numerator denominator : Nat) (scale : Int) : Nat :=
  nearestQuotient (numerator * twoTo (-scale).toNat) (denominator * twoTo scale.toNat)

theorem scaledSignificand_le (nonzero : numerator ≠ 0) (positive : 0 < denominator) {scale : Int}
    (near : floorLog numerator denominator - 52 ≤ scale) :
    scaledSignificand numerator denominator scale ≤ twoTo 53 := by
  apply nearestQuotient_le
  rw [Nat.mul_assoc, ← twoTo_add, ← Nat.not_le, ← le_floorLog_iff nonzero positive]
  omega

theorem le_scaledSignificand (nonzero : numerator ≠ 0) (positive : 0 < denominator) {scale : Int}
    (near : scale + 52 ≤ floorLog numerator denominator) :
    twoTo 52 ≤ scaledSignificand numerator denominator scale := by
  apply le_nearestQuotient (Nat.mul_pos positive (twoTo_pos _))
  rw [Nat.mul_assoc, ← twoTo_add, ← le_floorLog_iff nonzero positive]
  omega

-- The bound is the greatest significand and a half more, in its last place.
theorem twice_overflowBound : 2 * overflowBound = twoTo 971 * (2 * (twoTo 53 - 1) + 1) := by
  decide +kernel

/-- In the last place of the greatest finite number, the bound is where the carry begins. -/
theorem scaledSignificand_lt_iff (positive : 0 < denominator) :
    scaledSignificand numerator denominator 971 < twoTo 53 ↔
      numerator < denominator * overflowBound := by
  have odd : (twoTo 53 - 1) % 2 = 1 := by decide +kernel
  have carry : twoTo 53 - 1 < nearestQuotient numerator (denominator * twoTo 971) ↔
      2 * (denominator * overflowBound) ≤ 2 * numerator := by
    rw [odd_lt_nearestQuotient_iff odd (Nat.mul_pos positive (twoTo_pos 971)), Nat.mul_assoc,
      ← twice_overflowBound, Nat.mul_left_comm]
  have up : (971 : Int).toNat = 971 := rfl
  have down : (-971 : Int).toNat = 0 := rfl
  have one : twoTo 0 = 1 := rfl
  have positive := twoTo_pos 53
  rw [scaledSignificand, up, down, one, Nat.mul_one]
  omega

theorem nearestMagnitude_eq (nonzero : numerator ≠ 0) {scale : Int}
    (fine : max (floorLog numerator denominator - 52) (-1074) = scale) :
    nearestMagnitude numerator denominator =
      min ((scale + 1074).toNat * twoTo 52 + scaledSignificand numerator denominator scale)
        infinityBits := by
  subst fine
  exact if_neg nonzero

theorem floorLog_lt_iff (nonzero : numerator ≠ 0) (positive : 0 < denominator) (place : Nat) :
    floorLog numerator denominator < place ↔ numerator < denominator * twoTo place := by
  have reached := le_floorLog_iff nonzero positive place 0
  have one : twoTo 0 = 1 := rfl
  rw [one, Nat.mul_one, Int.natCast_zero, Int.sub_zero] at reached
  rw [← Int.not_le, reached, Nat.not_le]

theorem lt_bound_of_floorLog_lt (nonzero : numerator ≠ 0) (positive : 0 < denominator)
    (small : floorLog numerator denominator < 1023) : numerator < denominator * overflowBound :=
  calc numerator
      < denominator * twoTo 1023 := (floorLog_lt_iff nonzero positive 1023).mp small
    _ ≤ denominator * overflowBound := Nat.mul_le_mul_left _ (by decide +kernel)

theorem bound_le_of_lt_floorLog (nonzero : numerator ≠ 0) (positive : 0 < denominator)
    (great : 1023 < floorLog numerator denominator) : denominator * overflowBound ≤ numerator := by
  have reached : denominator * twoTo 1024 ≤ numerator := by
    rw [← Nat.not_lt, ← floorLog_lt_iff nonzero positive, Int.not_lt]
    exact great
  calc denominator * overflowBound
      ≤ denominator * twoTo 1024 := Nat.mul_le_mul_left _ (Nat.sub_le _ _)
    _ ≤ numerator := reached

/-- Below the bound a quotient is rounded to a finite number, and from it on to infinity. -/
theorem nearestMagnitude_lt_iff (nonzero : numerator ≠ 0) (positive : 0 < denominator) :
    nearestMagnitude numerator denominator < infinityBits ↔
      numerator < denominator * overflowBound := by
  obtain ⟨scale, fine⟩ : ∃ scale, max (floorLog numerator denominator - 52) (-1074) = scale :=
    ⟨_, rfl⟩
  have places : twoTo 53 = 2 * twoTo 52 := twoTo_add 1 52
  have unit := twoTo_pos 52
  have most : scaledSignificand numerator denominator scale ≤ twoTo 53 :=
    scaledSignificand_le nonzero positive (by omega)
  rw [nearestMagnitude_eq nonzero fine, infinityBits]
  rcases Int.lt_trichotomy (floorLog numerator denominator) 1023 with small | last | great
  · have inside : (scale + 1074).toNat * twoTo 52 ≤ 2044 * twoTo 52 :=
      Nat.mul_le_mul_right _ (by omega)
    exact iff_of_true (by omega) (lt_bound_of_floorLog_lt nonzero positive small)
  -- Only here the significand decides, and the carry makes it infinity.
  · obtain rfl : scale = 971 := by omega
    have shifted : (971 + 1074 : Int).toNat * twoTo 52 = 2045 * twoTo 52 := rfl
    rw [← scaledSignificand_lt_iff positive, shifted]
    omega
  · have least : twoTo 52 ≤ scaledSignificand numerator denominator scale :=
      le_scaledSignificand nonzero positive (by omega)
    have beyond : 2046 * twoTo 52 ≤ (scale + 1074).toNat * twoTo 52 :=
      Nat.mul_le_mul_right _ (by omega)
    exact iff_of_false (by omega)
      (Nat.not_lt.mpr (bound_le_of_lt_floorLog nonzero positive great))

end

theorem isFinite_ofMagnitude_iff {negative : Bool} {magnitude : Nat}
    (limited : magnitude ≤ infinityBits) :
    (ofMagnitude negative magnitude).isFinite = true ↔ magnitude < infinityBits := by
  have small : magnitude < twoTo 63 := Nat.lt_of_le_of_lt limited (by decide +kernel)
  have sizes : twoTo 63 + twoTo 63 = UInt64.size := by decide +kernel
  have bits : (ofMagnitude negative magnitude).magnitudeBits = magnitude := by
    rw [magnitudeBits, ofMagnitude, UInt64.toNat_ofNat_of_lt' (by split <;> omega)]
    cases negative with
    | true => rw [if_pos rfl, Nat.add_mod_left, Nat.mod_eq_of_lt small]
    | false => rw [if_neg Bool.false_ne_true, Nat.mod_eq_of_lt small]
  rw [isFinite, bits, decide_eq_true_iff]

theorem nearestMagnitude_le (numerator denominator : Nat) :
    nearestMagnitude numerator denominator ≤ infinityBits := by
  unfold nearestMagnitude
  split
  · exact Nat.zero_le _
  · exact Nat.min_le_right _ _

/-- A decimal far below one has fewer digits than its power of ten. -/
theorem digits_lt_tenTo {digits places : Nat} (few : digits.log2 + 1 ≤ 3 * places) :
    digits < tenTo places :=
  calc digits
      < twoTo (digits.log2 + 1) := lt_twoTo_log2 digits
    _ ≤ twoTo (3 * places) := twoTo_le_twoTo few
    _ ≤ tenTo places := twoTo_le_tenTo places

/-- A decimal is rounded to a finite number exactly below the bound. -/
theorem isFinite_ofDecimal_iff (negative : Bool) (digits : Nat) (exponent : Int) :
    (ofDecimal negative digits exponent).isFinite = true ↔
      digits * tenTo exponent.toNat < tenTo (-exponent).toNat * overflowBound := by
  have bound : 0 < overflowBound := by decide +kernel
  have one : tenTo 0 = 1 := rfl
  unfold ofDecimal
  split
  next tiny =>
    rw [isFinite_ofMagnitude_iff (Nat.zero_le _)]
    refine iff_of_true (by decide +kernel) ?_
    rcases tiny with rfl | ⟨few, low⟩
    · rw [Nat.zero_mul]
      exact Nat.mul_pos (tenTo_pos _) bound
    · rw [Int.toNat_of_nonpos (Int.le_of_lt low), one, Nat.mul_one]
      exact Nat.lt_of_lt_of_le (digits_lt_tenTo (by omega)) (Nat.le_mul_of_pos_right _ bound)
  next plain =>
    obtain ⟨nonzero, -⟩ := not_or.mp plain
    split
    next huge =>
      rw [isFinite_ofMagnitude_iff (Nat.le_refl _)]
      refine iff_of_false (Nat.lt_irrefl _) (Nat.not_lt.mpr ?_)
      rw [Int.toNat_of_nonpos (by omega), one, Nat.one_mul]
      calc overflowBound
          ≤ tenTo 401 := by decide +kernel
        _ ≤ tenTo exponent.toNat := tenTo_le_tenTo (by omega)
        _ ≤ digits * tenTo exponent.toNat :=
            Nat.le_mul_of_pos_left _ (Nat.pos_of_ne_zero nonzero)
    next near =>
      rw [isFinite_ofMagnitude_iff (nearestMagnitude_le _ _)]
      exact nearestMagnitude_lt_iff
        (Nat.mul_ne_zero nonzero (Nat.ne_of_gt (tenTo_pos _))) (tenTo_pos _)

end Binary64
end Stencil
