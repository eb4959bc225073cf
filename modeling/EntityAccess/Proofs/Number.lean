import EntityAccess.Number
import Mathlib.Algebra.Group.Nat.Defs
import Mathlib.Algebra.Order.Field.Power
import Mathlib.Algebra.Order.Field.Rat
import Mathlib.Data.Int.ConditionallyCompleteOrder
import Mathlib.Order.Basic
import Mathlib.Order.Monotone.Basic
import Mathlib.Tactic.NormNum
import Mathlib.Tactic.Positivity
import Mathlib.Tactic.SplitIfs

/-!
# Exact values of doubles

A finite double stands for a rational number.  Counted in the least positive
double all sizes are whole, and each is a unit in the last place above the size
before it.  So doubles are in the order of their values, a double is converted to
the integer that its value is, and integers are rounded in their order.
-/

namespace EntityAccess

/-! ## Rounding of whole numbers -/

namespace Rounding

theorem div_le_nearestEven (numerator denominator : Nat) :
    numerator / denominator ≤ nearestEven numerator denominator := by
  unfold nearestEven
  dsimp only
  split_ifs <;> omega

theorem nearestEven_le (numerator denominator : Nat) :
    nearestEven numerator denominator ≤ numerator / denominator + 1 := by
  unfold nearestEven
  dsimp only
  split_ifs <;> omega

/-- A greater numerator over the same denominator is not rounded to less. -/
theorem nearestEven_mono
    (denominator : Nat) {numerator other : Nat} (ordered : numerator ≤ other) :
    nearestEven numerator denominator ≤ nearestEven other denominator := by
  have quotients : numerator / denominator ≤ other / denominator :=
    Nat.div_le_div_right ordered
  rcases Nat.lt_or_eq_of_le quotients with less | same
  · calc nearestEven numerator denominator
      _ ≤ numerator / denominator + 1 := nearestEven_le numerator denominator
      _ ≤ other / denominator := less
      _ ≤ nearestEven other denominator := div_le_nearestEven other denominator
  · -- The same quotient is rounded by the remainders, and these are ordered too.
    have remainders : numerator % denominator ≤ other % denominator := by
      have whole := Nat.div_add_mod numerator denominator
      have otherWhole := Nat.div_add_mod other denominator
      rw [same] at whole
      omega
    unfold nearestEven
    dsimp only
    rw [same]
    split_ifs <;> omega

theorem nearestEven_mul_self (quotient : Nat) {denominator : Nat} (positive : 0 < denominator) :
    nearestEven (quotient * denominator) denominator = quotient := by
  unfold nearestEven
  dsimp only
  rw [Nat.mul_mod_left, Nat.mul_div_cancel quotient positive, Nat.mul_zero, if_pos positive]

/-- The binary logarithm of a whole number is exact at the first estimate. -/
theorem binaryLog_one {n : Nat} (positive : n ≠ 0) : binaryLog n 1 = n.log2 := by
  have estimate : (n.log2 : Int) - Nat.log2 1 = n.log2 := Int.sub_zero _
  have reached : reaches n 1 n.log2 = true := by
    have upper : twoTo n.log2 = 2 ^ n.log2 := congrArg (Nat.pow 2) (Int.toNat_natCast _)
    have lower : twoTo (-(n.log2 : Int)) = 1 :=
      congrArg (Nat.pow 2) (Int.toNat_of_nonpos (by omega))
    rw [reaches, upper, lower, Nat.one_mul, Nat.mul_one]
    exact decide_eq_true (Nat.log2_self_le positive)
  rw [binaryLog, estimate]
  exact if_pos reached

/-- The significand of the double nearest to a positive whole number. -/
def wholeSignificand (n : Nat) : Nat :=
  nearestEven (n * 2 ^ (52 - n.log2)) (2 ^ (n.log2 - 52))

theorem nearestMagnitude_one {n : Nat} (positive : n ≠ 0) :
    nearestMagnitude n 1 = (n.log2 + 1022) * binade + wholeSignificand n := by
  have exponent : max ((n.log2 : Int) - fractionBits) leastExponent = n.log2 - 52 := by
    unfold fractionBits leastExponent
    omega
  have upper : twoTo (n.log2 - 52 : Int) = 2 ^ (n.log2 - 52) :=
    congrArg (Nat.pow 2) (by omega)
  have lower : twoTo (-(n.log2 - 52 : Int)) = 2 ^ (52 - n.log2) :=
    congrArg (Nat.pow 2) (by omega)
  have field : ((n.log2 : Int) - 52 - leastExponent).toNat = n.log2 + 1022 := by
    unfold leastExponent
    omega
  rw [nearestMagnitude, if_neg positive, binaryLog_one positive]
  dsimp only
  rw [exponent, assemble, upper, lower, field, Nat.one_mul, wholeSignificand]

/-- Shifted to 53 bits, a whole number lies in the binade of the significands. -/
theorem shifted_bounds {n : Nat} (positive : n ≠ 0) :
    binade * 2 ^ (n.log2 - 52) ≤ n * 2 ^ (52 - n.log2) ∧
      n * 2 ^ (52 - n.log2) < 2 * binade * 2 ^ (n.log2 - 52) := by
  have lower : binade * 2 ^ (n.log2 - 52) = 2 ^ n.log2 * 2 ^ (52 - n.log2) := by
    change 2 ^ 52 * 2 ^ (n.log2 - 52) = _
    rw [← Nat.pow_add, ← Nat.pow_add]
    congr 1
    omega
  have upper : 2 * binade * 2 ^ (n.log2 - 52) = 2 ^ (n.log2 + 1) * 2 ^ (52 - n.log2) := by
    rw [Nat.mul_assoc, lower, Nat.pow_succ', Nat.mul_assoc]
  rw [lower, upper]
  exact ⟨Nat.mul_le_mul_right _ (Nat.log2_self_le positive),
    Nat.mul_lt_mul_of_pos_right Nat.lt_log2_self (Nat.two_pow_pos _)⟩

theorem binade_le_wholeSignificand {n : Nat} (positive : n ≠ 0) :
    binade ≤ wholeSignificand n :=
  Nat.le_trans ((Nat.le_div_iff_mul_le (Nat.two_pow_pos _)).2 (shifted_bounds positive).1)
    (div_le_nearestEven _ _)

theorem wholeSignificand_le {n : Nat} (positive : n ≠ 0) :
    wholeSignificand n ≤ 2 * binade :=
  Nat.le_trans (nearestEven_le _ _)
    ((Nat.div_lt_iff_lt_mul (Nat.two_pow_pos _)).2 (shifted_bounds positive).2)

/-- A whole number with zeros beyond its 53 leading bits keeps its value. -/
theorem wholeSignificand_mul_two_pow {n : Nat} (short : 2 ^ (n.log2 - 52) ∣ n) (scale : Nat) :
    wholeSignificand n * 2 ^ (n.log2 + scale) = n * 2 ^ (52 + scale) := by
  obtain ⟨leading, whole⟩ := Nat.dvd_mul_right_of_dvd short (2 ^ (52 - n.log2))
  have kept : wholeSignificand n * 2 ^ (n.log2 - 52) = n * 2 ^ (52 - n.log2) := by
    rw [wholeSignificand, whole, Nat.mul_comm _ leading,
      nearestEven_mul_self leading (Nat.two_pow_pos _)]
  -- Both sides are scaled by what the two shifts leave of the exponents.
  let common := min n.log2 52 + scale
  calc wholeSignificand n * 2 ^ (n.log2 + scale)
    _ = wholeSignificand n * 2 ^ (n.log2 - 52) * 2 ^ common := by
        rw [Nat.mul_assoc, ← Nat.pow_add]
        congr 2
        omega
    _ = n * 2 ^ (52 - n.log2) * 2 ^ common := by rw [kept]
    _ = n * 2 ^ (52 + scale) := by
        rw [Nat.mul_assoc, ← Nat.pow_add]
        congr 2
        omega

/-- Counted in the least positive double, it is as many times the number of them in one. -/
theorem wholeSignificand_mul_units {n : Nat} (short : 2 ^ (n.log2 - 52) ∣ n) :
    wholeSignificand n * 2 ^ (n.log2 + 1022) = n * twoTo (-leastExponent) := by
  have scale : 52 + 1022 = (-leastExponent).toNat := by decide
  rw [wholeSignificand_mul_two_pow short, scale, twoTo, Nat.pow_eq]

/-- A greater whole number is not rounded to a lesser magnitude. -/
theorem nearestMagnitude_one_mono {n other : Nat} (ordered : n ≤ other) :
    nearestMagnitude n 1 ≤ nearestMagnitude other 1 := by
  by_cases zero : n = 0
  · rw [zero, nearestMagnitude, if_pos rfl]
    exact Nat.zero_le _
  · have otherPositive : other ≠ 0 := by omega
    have logs : n.log2 ≤ other.log2 :=
      (Nat.le_log2 otherPositive).2 (Nat.le_trans (Nat.log2_self_le zero) ordered)
    rw [nearestMagnitude_one zero, nearestMagnitude_one otherPositive]
    rcases Nat.lt_or_eq_of_le logs with less | same
    · -- The binades are apart, and a significand reaches the next binade at most.
      have most := wholeSignificand_le zero
      have least := binade_le_wholeSignificand otherPositive
      unfold binade at *
      omega
    · rw [same]
      refine Nat.add_le_add_left ?_ _
      rw [wholeSignificand, wholeSignificand, same]
      exact nearestEven_mono _ (Nat.mul_le_mul_right _ ordered)

end Rounding

/-! ## Finite doubles -/

/-- The integers of 64 bits are those in their range, each as it is. -/
theorem exactInt64?_eq_some_iff {n : Int} {i : Int64} :
    exactInt64? n = some i ↔ i.toInt = n := by
  rw [exactInt64?, Option.ite_none_right_eq_some, Option.some.injEq]
  constructor
  · rintro ⟨⟨lower, upper⟩, rfl⟩
    exact Int64.toInt_ofInt_of_le lower upper
  · rintro rfl
    exact ⟨⟨i.le_toInt, i.toInt_lt⟩, Int64.ofInt_toInt i⟩

theorem exists_exactInt64?_iff {n : Int} :
    (∃ i, exactInt64? n = some i) ↔ -0x8000000000000000 ≤ n ∧ n < 0x8000000000000000 := by
  simp [exactInt64?, Option.ite_none_right_eq_some]

namespace Rounding

/-- The doubles nearest to the integers of 64 bits are far from infinity. -/
theorem nearestMagnitude_lt_infinity {n : Nat} (fits : n < 0x10000000000000000) :
    nearestMagnitude n 1 < infinity := by
  by_cases zero : n = 0
  · rw [nearestMagnitude, if_pos zero]
    decide
  · have width : n.log2 < 64 := (Nat.log2_lt zero).2 fits
    have significand := wholeSignificand_le zero
    rw [nearestMagnitude_one zero]
    unfold infinity binade at *
    omega

end Rounding

namespace Binary64

theorem isFinite_ofMagnitude
    {negative : Bool} {magnitude : Nat} (small : magnitude < Rounding.infinity) :
    (ofMagnitude negative magnitude).isFinite = true := by
  refine decide_eq_true ?_
  rwa [magnitude_ofMagnitude]
  exact Nat.lt_trans small (by decide)

theorem isFinite_ofInt64 (n : Int64) : (ofInt64 n).isFinite = true := by
  have lower := n.le_toInt
  have upper := n.toInt_lt
  exact isFinite_ofMagnitude (Rounding.nearestMagnitude_lt_infinity (by omega))

theorem isNaN_of_isFinite {x : Binary64} (finite : x.isFinite = true) : x.isNaN = false :=
  decide_eq_false (Nat.not_lt.2 (Nat.le_of_lt (of_decide_eq_true finite)))

/-- Only a finite double equals an integer. -/
theorem isFinite_of_toInt64? {x : Binary64} {n : Int64} (whole : x.toInt64? = some n) :
    x.isFinite = true := by
  cases finite : x.isFinite with
  | true => rfl
  | false => simp [toInt64?, toInt?, finite] at whole

end Binary64

/-! ## Values -/

namespace Rounding

/-- The size of a magnitude, counted in the least positive double. -/
def units (magnitude : Nat) : Nat :=
  if magnitude < binade then magnitude
  else (binade + magnitude % binade) * 2 ^ (magnitude / binade - 1)

/-- The next size is a unit in the last place greater. -/
theorem units_succ (magnitude : Nat) :
    units (magnitude + 1) = units magnitude + 2 ^ (magnitude / binade - 1) := by
  unfold units
  by_cases subnormal : magnitude < binade
  · have field : magnitude / binade - 1 = 0 := by
      unfold binade at *
      omega
    rw [if_pos subnormal, field]
    split
    · rfl
    · have last : magnitude + 1 = binade := by omega
      rw [last, Nat.mod_self, Nat.div_self (by decide), Nat.sub_self, Nat.pow_zero, Nat.mul_one,
        Nat.add_zero]
      exact last.symm
  · rw [if_neg subnormal, if_neg (by omega)]
    by_cases carries : magnitude % binade + 1 = binade
    · -- The fraction returns to zero and the field goes up by one.
      have fraction : (magnitude + 1) % binade = 0 := by
        unfold binade at *
        omega
      have field : (magnitude + 1) / binade - 1 = magnitude / binade - 1 + 1 := by
        unfold binade at *
        omega
      rw [fraction, field, Nat.pow_succ', ← Nat.succ_mul, Nat.succ_eq_add_one, Nat.add_assoc,
        carries, Nat.add_zero, ← Nat.mul_assoc, Nat.mul_two]
    · have fraction : (magnitude + 1) % binade = magnitude % binade + 1 := by
        unfold binade at *
        omega
      have field : (magnitude + 1) / binade = magnitude / binade := by
        unfold binade at *
        omega
      rw [fraction, field, ← Nat.add_assoc, Nat.succ_mul]

theorem strictMono_units : StrictMono units :=
  strictMono_nat_of_lt_succ fun magnitude => by
    rw [units_succ]
    exact Nat.lt_add_of_pos_right (Nat.two_pow_pos _)

/-- A significand may also be the first of the next binade. -/
theorem units_of_significand
    (field : Nat) {significand : Nat} (least : binade ≤ significand)
    (most : significand ≤ 2 * binade) :
    units (field * binade + significand) = significand * 2 ^ field := by
  have normal : ¬ field * binade + significand < binade := by omega
  rw [units, if_neg normal]
  rcases Nat.lt_or_eq_of_le most with less | rfl
  · have fraction : binade + (field * binade + significand) % binade = significand := by
      unfold binade at *
      omega
    have exponent : (field * binade + significand) / binade - 1 = field := by
      unfold binade at *
      omega
    rw [fraction, exponent]
  · have fraction : (field * binade + 2 * binade) % binade = 0 := by
      rw [← Nat.add_mul, Nat.mul_mod_left]
    have exponent : (field * binade + 2 * binade) / binade - 1 = field + 1 := by
      rw [← Nat.add_mul, Nat.mul_div_cancel _ (by decide)]
      omega
    rw [fraction, exponent, Nat.pow_succ', Nat.add_zero, ← Nat.mul_assoc, Nat.mul_comm binade 2]

theorem cast_twoTo {exponent : Int} (whole : 0 ≤ exponent) :
    (twoTo exponent : ℚ) = 2 ^ exponent := by
  conv_rhs => rw [← Int.toNat_of_nonneg whole, zpow_natCast]
  exact Nat.cast_pow 2 exponent.toNat

/-- A whole number of at most 53 significant bits is rounded to its own size. -/
theorem units_nearestMagnitude_one {n : Nat} (short : 2 ^ (n.log2 - 52) ∣ n) :
    units (nearestMagnitude n 1) = n * twoTo (-leastExponent) := by
  by_cases zero : n = 0
  · rw [zero, nearestMagnitude, if_pos rfl, Nat.zero_mul]
    exact if_pos (by decide)
  · rw [nearestMagnitude_one zero, units_of_significand _ (binade_le_wholeSignificand zero)
      (wholeSignificand_le zero), wholeSignificand_mul_units short]

/-- The value of a rank, counted in the least positive double. -/
def signedUnits (rank : Int) : Int :=
  if rank < 0 then -(units rank.natAbs : Int) else units rank.natAbs

theorem strictMono_signedUnits : StrictMono signedUnits := by
  intro low high less
  have zero : units 0 = 0 := if_pos (by decide)
  unfold signedUnits
  split
  · rename_i negative
    have positive : units 0 < units low.natAbs := strictMono_units (by omega)
    split
    · have sizes : units high.natAbs < units low.natAbs := strictMono_units (by omega)
      omega
    · omega
  · have sizes : units low.natAbs < units high.natAbs := strictMono_units (by omega)
    rw [if_neg (by omega)]
    omega

end Rounding

namespace Binary64

open Rounding (binade units signedUnits leastExponent)

/-- The size `m * 2 ^ q` as a number. -/
def Parts.toRat (p : Parts) : ℚ := p.significand * 2 ^ p.exponent

/-- The number that a finite double stands for. -/
def toRat (x : Binary64) : ℚ :=
  if x.negative then -x.parts.toRat else x.parts.toRat

theorem toRat_parts (x : Binary64) :
    x.parts.toRat = units x.magnitude * 2 ^ leastExponent := by
  unfold parts units Parts.toRat
  dsimp only
  by_cases subnormal : x.magnitude < binade
  · rw [if_pos (Nat.div_eq_of_lt subnormal), if_pos subnormal, Nat.mod_eq_of_lt subnormal]
  · obtain ⟨field, fields⟩ : ∃ field, x.magnitude / binade = field + 1 :=
      Nat.exists_eq_add_one_of_ne_zero (Nat.div_ne_zero_iff.2 ⟨by decide, by omega⟩)
    have exponent : ((field + 1 : Nat) : Int) + leastExponent - 1 = field + leastExponent := by
      omega
    rw [fields, if_neg (Nat.succ_ne_zero field), if_neg subnormal, Nat.add_sub_cancel]
    dsimp only
    rw [exponent, zpow_add₀ two_ne_zero, zpow_natCast]
    push_cast
    rw [mul_assoc]

/-- A double stands for as many least doubles as its rank tells. -/
theorem toRat_eq (x : Binary64) : x.toRat = signedUnits x.rank * 2 ^ leastExponent := by
  have zero : units 0 = 0 := if_pos (by decide)
  rw [toRat, toRat_parts, rank, signedUnits]
  cases x.negative with
  | false => simp
  | true =>
      by_cases positive : x.magnitude = 0
      · simp [positive, zero]
      · simp [positive]

theorem strictMono_value :
    StrictMono fun rank : Int => (signedUnits rank : ℚ) * 2 ^ leastExponent := by
  intro low high less
  have values : (signedUnits low : ℚ) < signedUnits high :=
    Int.cast_lt.2 (Rounding.strictMono_signedUnits less)
  exact mul_lt_mul_of_pos_right values (by positivity)

/-- Doubles are ranked by their values. -/
theorem toRat_le_iff {x y : Binary64} : x.toRat ≤ y.toRat ↔ x.rank ≤ y.rank := by
  rw [toRat_eq, toRat_eq]
  exact strictMono_value.le_iff_le

theorem toRat_lt_iff {x y : Binary64} : x.toRat < y.toRat ↔ x.rank < y.rank := by
  rw [toRat_eq, toRat_eq]
  exact strictMono_value.lt_iff_lt

/-- A size is whole when the significand is divisible by what lies below the point. -/
theorem wholeSize?_eq_some_iff {x : Binary64} {size : Nat} :
    x.wholeSize? = some size ↔ x.parts.toRat = size := by
  unfold wholeSize? Parts.toRat
  obtain ⟨significand, exponent⟩ := x.parts
  dsimp only
  rcases le_total 0 exponent with whole | fractional
  · have below : Rounding.twoTo (-exponent) = 1 :=
      congrArg (Nat.pow 2) (Int.toNat_of_nonpos (by omega))
    rw [below, Nat.mod_one, if_pos rfl, Nat.div_one, Option.some.injEq,
      ← Rounding.cast_twoTo whole, ← Nat.cast_mul, Nat.cast_inj]
  · have above : Rounding.twoTo exponent = 1 :=
      congrArg (Nat.pow 2) (Int.toNat_of_nonpos fractional)
    have positive : 0 < Rounding.twoTo (-exponent) := Nat.two_pow_pos _
    have below : (2 : ℚ) ^ exponent = (Rounding.twoTo (-exponent) : ℚ)⁻¹ := by
      rw [Rounding.cast_twoTo (neg_nonneg.2 fractional), zpow_neg, inv_inv]
    have cleared : (significand : ℚ) * 2 ^ exponent = size ↔
        significand = size * Rounding.twoTo (-exponent) := by
      rw [below, mul_inv_eq_iff_eq_mul₀ (Nat.cast_ne_zero.2 positive.ne'), ← Nat.cast_mul,
        Nat.cast_inj]
    rw [cleared, above, Nat.mul_one, Option.ite_none_right_eq_some, Option.some.injEq]
    constructor
    · rintro ⟨divides, rfl⟩
      exact (Nat.div_mul_cancel (Nat.dvd_of_mod_eq_zero divides)).symm
    · rintro rfl
      exact ⟨Nat.mul_mod_left _ _, Nat.mul_div_cancel _ positive⟩

theorem toRat_parts_nonneg (x : Binary64) : 0 ≤ x.parts.toRat := by
  unfold Parts.toRat
  positivity

theorem toInt?_eq (x : Binary64) :
    x.toInt? = if x.isFinite then
      x.wholeSize?.map fun size : Nat => if x.negative then -(size : Int) else size else none := by
  rw [toInt?]
  cases x.wholeSize? <;> rfl

/-- A finite double equals an integer when its value does. -/
theorem toInt?_eq_some_iff {x : Binary64} {n : Int} :
    x.toInt? = some n ↔ x.isFinite = true ∧ x.toRat = n := by
  rw [toInt?_eq, Option.ite_none_right_eq_some, Option.map_eq_some_iff]
  refine and_congr_right fun _ => ?_
  simp only [wholeSize?_eq_some_iff, toRat]
  have size := x.toRat_parts_nonneg
  cases x.negative with
  | false =>
      simp only [Bool.false_eq_true, if_false]
      constructor
      · rintro ⟨whole, value, rfl⟩
        exact value
      · intro value
        have natural : 0 ≤ n := Int.cast_nonneg_iff.1 (value ▸ size)
        exact ⟨n.toNat, by rw [value, ← Int.cast_natCast, Int.toNat_of_nonneg natural],
          Int.toNat_of_nonneg natural⟩
  | true =>
      simp only [if_true]
      constructor
      · rintro ⟨whole, value, rfl⟩
        rw [value]
        push_cast
        rfl
      · intro value
        have opposite : x.parts.toRat = ((-n : Int) : ℚ) := by
          rw [Int.cast_neg, ← value, neg_neg]
        have natural : 0 ≤ -n := Int.cast_nonneg_iff.1 (opposite ▸ size)
        exact ⟨(-n).toNat, by rw [opposite, ← Int.cast_natCast, Int.toNat_of_nonneg natural],
          by rw [Int.toNat_of_nonneg natural, neg_neg]⟩

/-- The integer that a double is converted to is its value. -/
theorem toInt64?_eq_some_iff {x : Binary64} {n : Int64} :
    x.toInt64? = some n ↔ x.isFinite = true ∧ x.toRat = n.toInt := by
  simp only [toInt64?, Option.bind_eq_some_iff, toInt?_eq_some_iff, exactInt64?_eq_some_iff,
    exists_eq_right']

/-- A double is converted when it is finite, whole and in the range of the integers. -/
theorem exists_toInt64?_iff {x : Binary64} :
    (∃ n, x.toInt64? = some n) ↔
      x.isFinite = true ∧ (∃ k : Int, x.toRat = k) ∧
        -0x8000000000000000 ≤ x.toRat ∧ x.toRat < 0x8000000000000000 := by
  constructor
  · rintro ⟨n, converted⟩
    obtain ⟨finite, value⟩ := toInt64?_eq_some_iff.1 converted
    rw [value]
    refine ⟨finite, ⟨n.toInt, rfl⟩, ?_, ?_⟩
    · exact_mod_cast n.le_toInt
    · exact_mod_cast n.toInt_lt
  · rintro ⟨finite, ⟨k, value⟩, lower, upper⟩
    rw [value] at lower upper
    obtain ⟨n, exact⟩ := exists_exactInt64?_iff (n := k) |>.2
      ⟨by exact_mod_cast lower, by exact_mod_cast upper⟩
    exact ⟨n, toInt64?_eq_some_iff.2 ⟨finite, by rw [value, exactInt64?_eq_some_iff.1 exact]⟩⟩

theorem nearestMagnitude_lt_signWeight (n : Int64) :
    Rounding.nearestMagnitude n.toInt.natAbs 1 < signWeight := by
  have lower := n.le_toInt
  have upper := n.toInt_lt
  exact Nat.lt_trans (Rounding.nearestMagnitude_lt_infinity (by omega)) (by decide)

theorem rank_ofInt64 (n : Int64) :
    (ofInt64 n).rank =
      if n.toInt < 0 then -(Rounding.nearestMagnitude n.toInt.natAbs 1 : Int)
      else Rounding.nearestMagnitude n.toInt.natAbs 1 := by
  have small := nearestMagnitude_lt_signWeight n
  rw [rank, ofInt64, negative_ofMagnitude _ small, magnitude_ofMagnitude _ small]
  exact if_congr decide_eq_true_iff rfl rfl

/-- Integers in order are rounded in order. -/
theorem rank_ofInt64_mono {m n : Int64} (ordered : m.toInt ≤ n.toInt) :
    (ofInt64 m).rank ≤ (ofInt64 n).rank := by
  rw [rank_ofInt64, rank_ofInt64]
  split <;> split
  · have sizes : n.toInt.natAbs ≤ m.toInt.natAbs := by omega
    exact Int.neg_le_neg (Int.ofNat_le.2 (Rounding.nearestMagnitude_one_mono sizes))
  · omega
  · omega
  · have sizes : m.toInt.natAbs ≤ n.toInt.natAbs := by omega
    exact Int.ofNat_le.2 (Rounding.nearestMagnitude_one_mono sizes)

/-- An integer of at most 53 significant bits is the value of its double. -/
theorem toRat_ofInt64
    {n : Int64} (short : 2 ^ (n.toInt.natAbs.log2 - 52) ∣ n.toInt.natAbs) :
    (ofInt64 n).toRat = n.toInt := by
  have small := nearestMagnitude_lt_signWeight n
  have size : ((n.toInt.natAbs * Rounding.twoTo (-leastExponent) : Nat) : ℚ) * 2 ^ leastExponent =
      n.toInt.natAbs := by
    rw [Nat.cast_mul, Rounding.cast_twoTo (by decide), mul_assoc, ← zpow_add₀ two_ne_zero,
      neg_add_cancel, zpow_zero, mul_one]
  rw [toRat, toRat_parts, ofInt64, negative_ofMagnitude _ small, magnitude_ofMagnitude _ small,
    Rounding.units_nearestMagnitude_one short, size, Nat.cast_natAbs]
  by_cases negative : n.toInt < 0
  · rw [decide_eq_true negative, if_pos rfl, abs_of_neg negative, Int.cast_neg, neg_neg]
  · rw [decide_eq_false negative, if_neg Bool.false_ne_true, abs_of_nonneg (not_lt.1 negative)]

/-- Up to the 53rd power of two every integer has 53 significant bits at most. -/
theorem toRat_ofInt64_of_le {n : Int64} (small : n.toInt.natAbs ≤ 2 ^ 53) :
    (ofInt64 n).toRat = n.toInt := by
  refine toRat_ofInt64 ?_
  rcases Nat.lt_or_eq_of_le small with less | power
  · by_cases zero : n.toInt.natAbs = 0
    · rw [zero]
      exact Nat.dvd_zero _
    · have log : n.toInt.natAbs.log2 < 53 := (Nat.log2_lt zero).2 less
      rw [Nat.sub_eq_zero_of_le (by omega), Nat.pow_zero]
      exact Nat.one_dvd _
  · rw [power, Nat.log2_two_pow]
    exact Nat.pow_dvd_pow 2 (by decide)

/-- The bounds of the integers as doubles: the lower one is kept, the upper one is rounded up. -/
theorem toRat_ofInt64_minValue : (ofInt64 Int64.minValue).toRat = -0x8000000000000000 := by
  have bits : ofInt64 Int64.minValue = ⟨0xC3E0000000000000⟩ := by decide
  have parts : (⟨0xC3E0000000000000⟩ : Binary64).parts = ⟨0x10000000000000, 11⟩ := by decide
  have negative : (⟨0xC3E0000000000000⟩ : Binary64).negative = true := by decide
  rw [bits, toRat, parts, negative, if_pos rfl, Parts.toRat]
  norm_num

theorem toRat_ofInt64_maxValue : (ofInt64 Int64.maxValue).toRat = 0x8000000000000000 := by
  have bits : ofInt64 Int64.maxValue = ⟨0x43E0000000000000⟩ := by decide
  have parts : (⟨0x43E0000000000000⟩ : Binary64).parts = ⟨0x10000000000000, 11⟩ := by decide
  have negative : (⟨0x43E0000000000000⟩ : Binary64).negative = false := by decide
  rw [bits, toRat, parts, negative, if_neg Bool.false_ne_true, Parts.toRat]
  norm_num

end Binary64

end EntityAccess
