import ContractAbi.Proofs.SignMagnitude
import Mathlib.Algebra.Order.Field.Power
import Mathlib.Algebra.Order.Floor.Semifield
import Mathlib.Data.Rat.Floor
import Mathlib.Data.Sign.Basic
import Mathlib.Tactic.FieldSimp
import Mathlib.Tactic.Linarith
/-!
Fixed-point numbers from binary64 numbers. A finite binary64 number stands for the rational
`± significand · 2 ^ exponent` (`Binary64.toRat`). `FixedPoint.ofBinary64 x n` rounds exactly: its
raw integer is `x · 2 ^ n` rounded to the nearest integer, a tie away from zero (`roundHalfAway`),
and it refuses exactly NaN, the infinities and results of magnitude `2 ^ 256` or more
(`ofBinary64_eq_roundHalfAway`). A result that rounds to zero is the non-negative zero, for `-0.0`
too. Behind it, a left shift of the mantissa is exact and a right shift that adds back the last bit
shifted out is `⌊m / 2 ^ s + 1 / 2⌋` (`FixedPoint.shiftRound?_eq`).
-/

namespace ContractAbi

/-- The integer nearest to `q`, a tie away from zero. -/
def roundHalfAway (q : ℚ) : ℤ := SignType.sign q * ⌊|q| + 1 / 2⌋

example : roundHalfAway (-5 / 2) = -3 ∧ roundHalfAway (5 / 2) = 3 ∧ roundHalfAway (-1 / 4) = 0 := by
  decide +kernel

theorem roundHalfAway_neg (q : ℚ) : roundHalfAway (-q) = -roundHalfAway q := by
  simp [roundHalfAway, Left.sign_neg]

theorem roundHalfAway_of_nonneg {q : ℚ} (hq : 0 ≤ q) : roundHalfAway q = ⌊q + 1 / 2⌋₊ := by
  rcases hq.eq_or_lt with rfl | hpos
  · norm_num [roundHalfAway, Nat.floor_eq_zero]
  · rw [roundHalfAway, sign_pos hpos, abs_of_pos hpos, Int.natCast_floor_eq_floor (by positivity)]
    simp

namespace Binary64

def magnitude (x : Binary64) : ℚ := x.significand * 2 ^ x.exponent

/-- The number a finite value stands for; both zeros stand for `0`. -/
def toRat (x : Binary64) : ℚ := if x.sign then -x.magnitude else x.magnitude

theorem magnitude_nonneg (x : Binary64) : 0 ≤ x.magnitude := by
  unfold magnitude
  positivity

theorem abs_toRat (x : Binary64) : |x.toRat| = x.magnitude := by
  unfold toRat
  split <;> simp [abs_of_nonneg x.magnitude_nonneg]

/-- The magnitude as the mantissa that the scaling shifts, whose last bit has the exponent
`exponentField - 1075`: below the normal range that exponent is one short, so the fraction is
doubled. -/
theorem magnitude_mul_pow (x : Binary64) (n : ℕ) :
    x.magnitude * 2 ^ n =
      ((if x.exponentField = 0 then 2 * x.fractionField else x.fractionField + Nat.pow 2 52 : ℕ) : ℚ) *
        2 ^ ((x.exponentField : ℤ) - 1075 + n) := by
  rw [zpow_add₀ two_ne_zero, zpow_natCast, magnitude, significand, exponent]
  split_ifs with h
  · have hsub : (2 : ℚ) ^ (-1074 : ℤ) = 2 * 2 ^ ((x.exponentField : ℤ) - 1075) := by
      rw [← zpow_one_add₀ two_ne_zero, h]
      rfl
    rw [hsub]
    generalize (2 : ℚ) ^ ((x.exponentField : ℤ) - 1075) = E
    push_cast
    ring
  · push_cast
    ring

end Binary64

namespace FixedPoint

theorem div_pow_succ_add_bit (m k : ℕ) :
    m / 2 ^ (k + 1) + m / 2 ^ k % 2 = (m + 2 ^ k) / 2 ^ (k + 1) := by
  have hq : (m + 2 ^ k) / 2 ^ k = m / 2 ^ k + 1 := Nat.add_div_right m (Nat.two_pow_pos k)
  rw [Nat.pow_succ, ← Nat.div_div_eq_div_mul, ← Nat.div_div_eq_div_mul, hq]
  omega

theorem floor_div_pow_succ_add_half (m k : ℕ) :
    ⌊(m : ℚ) / 2 ^ (k + 1) + 1 / 2⌋₊ = (m + 2 ^ k) / 2 ^ (k + 1) := by
  have h : (m : ℚ) / 2 ^ (k + 1) + 1 / 2 = ((m + 2 ^ k : ℕ) : ℚ) / ((2 ^ (k + 1) : ℕ) : ℚ) := by
    push_cast
    field_simp
    ring
  rw [h, Nat.floor_div_eq_div]

theorem floor_natCast_add_half (N : ℕ) : ⌊(N : ℚ) + 1 / 2⌋₊ = N := by
  rw [Nat.floor_eq_iff (by positivity)]
  constructor <;> linarith

theorem width_gt_iff {m : ℕ} (hm : m ≠ 0) (t : ℕ) :
    m.log2 + 1 + t > 256 ↔ 2 ^ 256 ≤ m * 2 ^ t := by
  by_cases ht : t ≤ 256
  · have h := Nat.le_log2 (k := 256 - t) hm
    have hpow : 2 ^ 256 = 2 ^ (256 - t) * 2 ^ t := by
      rw [← Nat.pow_add]
      congr 1
      omega
    rw [hpow, Nat.mul_le_mul_right_iff (Nat.two_pow_pos t), ← h]
    omega
  · have : 2 ^ 256 ≤ 2 ^ t := Nat.pow_le_pow_right (by norm_num) (by omega)
    have : 2 ^ t ≤ m * 2 ^ t := Nat.le_mul_of_pos_left _ (Nat.pos_of_ne_zero hm)
    constructor <;> intro <;> omega

theorem shiftRound?_ofNat (m j : ℕ) :
    shiftRound? m j = if m * 2 ^ j < 2 ^ 256 then some (m * 2 ^ j) else none := by
  rw [shiftRound?, if_pos (Int.natCast_nonneg j), Int.toNat_natCast, Nat.pow_eq]
  by_cases hm : m = 0
  · simp [hm]
  · have hw : (m ≠ 0 ∧ m.log2 + 1 + j > 256) ↔ ¬m * 2 ^ j < 2 ^ 256 := by
      rw [width_gt_iff hm, not_lt]
      exact and_iff_right hm
    simp only [hw, ite_not]

theorem shiftRound?_negSucc {m : ℕ} (hm : m < 2 ^ 64) (k : ℕ) :
    shiftRound? m (Int.negSucc k) = some ((m + 2 ^ k) / 2 ^ (k + 1)) := by
  have hs : (-Int.negSucc k).toNat = k + 1 := by omega
  simp only [shiftRound?, hs, Nat.pow_eq, Nat.add_sub_cancel]
  rw [if_neg (by omega)]
  split_ifs with h64 h64'
  · -- the mantissa lies below half the step, so it rounds to zero
    have : 2 ^ 64 ≤ 2 ^ k := Nat.pow_le_pow_right (by norm_num) (by omega)
    rw [Nat.div_eq_of_lt (by rw [Nat.pow_succ]; omega)]
  · obtain rfl : k = 63 := by omega
    rw [← div_pow_succ_add_bit, Nat.div_eq_of_lt hm]
  · rw [div_pow_succ_add_bit]

theorem shiftRound?_eq {m : ℕ} (hm : m < 2 ^ 64) (t : ℤ) :
    shiftRound? m t =
      if (m : ℚ) * 2 ^ t < 2 ^ 256 then some ⌊(m : ℚ) * 2 ^ t + 1 / 2⌋₊ else none := by
  cases t with
  | ofNat j =>
    rw [Int.ofNat_eq_natCast, shiftRound?_ofNat, zpow_natCast]
    norm_cast
    rw [floor_natCast_add_half]
  | negSucc k =>
    have hsmall : (m : ℚ) * 2 ^ Int.negSucc k < 2 ^ 256 := by
      rw [zpow_negSucc, ← div_eq_mul_inv]
      calc (m : ℚ) / 2 ^ (k + 1) ≤ m := div_le_self (by positivity) (one_le_pow₀ one_le_two)
        _ < 2 ^ 256 := by exact_mod_cast hm.trans (by norm_num)
    rw [shiftRound?_negSucc hm, if_pos hsmall, zpow_negSucc, ← div_eq_mul_inv,
      floor_div_pow_succ_add_half]

theorem shiftRound?_lt {m N : ℕ} (hm : m < 2 ^ 64) {t : ℤ} (h : shiftRound? m t = some N) :
    N < 2 ^ 256 := by
  cases t with
  | ofNat j =>
    rw [Int.ofNat_eq_natCast, shiftRound?_ofNat] at h
    split_ifs at h with hsmall
    cases h
    exact hsmall
  | negSucc k =>
    rw [shiftRound?_negSucc hm] at h
    cases h
    have : 1 ≤ 2 ^ k := Nat.one_le_two_pow
    rw [Nat.div_lt_iff_lt_mul (Nat.two_pow_pos _), Nat.pow_succ]
    omega

theorem mantissa_lt (x : Binary64) :
    (if x.exponentField = 0 then 2 * x.fractionField else x.fractionField + Nat.pow 2 52) <
      2 ^ 64 := by
  have : x.fractionField < 2 ^ 52 := Nat.mod_lt _ (Nat.two_pow_pos 52)
  simp only [Nat.pow_eq]
  split <;> omega

theorem exponentField_lt (x : Binary64) : x.exponentField < 2048 :=
  Nat.mod_lt _ (by decide)

/-- Below `2 ^ 62` fractional bits the shift is the exponent of the last mantissa bit plus `n`:
`n` reads as itself and the sum stays a signed 64-bit integer. -/
theorem shift_eq {x : Binary64} {n : ℕ} (hn : n < 2 ^ 62) :
    shift x n = .ok ((x.exponentField : ℤ) - 1075 + n) := by
  have he := exponentField_lt x
  have hof : I64.ofUsize n = n := by
    rw [I64.ofUsize, if_pos (by rw [Nat.pow_eq]; omega)]
  rw [shift, I64.add, hof, if_neg (by rw [Int.pow_eq]; omega)]

theorem scaledMagnitude?_eq (x : Binary64) {n : ℕ} (hn : n < 2 ^ 62) :
    scaledMagnitude? x n = .ok (if x.magnitude * 2 ^ n < 2 ^ 256 then
      some ⌊x.magnitude * 2 ^ n + 1 / 2⌋₊ else none) := by
  rw [scaledMagnitude?, shift_eq hn, Binary64.magnitude_mul_pow]
  exact congrArg Except.ok (shiftRound?_eq (mantissa_lt x) _)

theorem scaledMagnitude?_lt {x : Binary64} {n N : ℕ} (h : scaledMagnitude? x n = .ok (some N)) :
    N < 2 ^ 256 := by
  obtain ⟨t, -, ht⟩ := Except.map_eq_ok.1 h
  exact shiftRound?_lt (mantissa_lt x) ht

theorem rawOfBinary64?_eq (x : Binary64) {n : ℕ} (hn : n < 2 ^ 62) :
    rawOfBinary64? x n =
      .ok (if x.isFinite ∧ x.magnitude * 2 ^ n < 2 ^ 256 then
        some (I256.new (BitVec.ofNat 256 ⌊x.magnitude * 2 ^ n + 1 / 2⌋₊) x.sign)
      else none) := by
  unfold rawOfBinary64?
  by_cases hf : x.isFinite
  · rw [scaledMagnitude?_eq x hn]
    by_cases hb : x.magnitude * 2 ^ n < 2 ^ 256 <;> simp [hf, hb, Except.map]
  · simp [hf]

end FixedPoint

theorem roundHalfAway_toRat_mul (x : Binary64) (n : ℕ) :
    roundHalfAway (x.toRat * 2 ^ n) =
      if x.sign then -(⌊x.magnitude * 2 ^ n + 1 / 2⌋₊ : ℤ) else ⌊x.magnitude * 2 ^ n + 1 / 2⌋₊ := by
  have hnonneg : 0 ≤ x.magnitude * 2 ^ n := by
    have := x.magnitude_nonneg
    positivity
  unfold Binary64.toRat
  split
  · rw [neg_mul, roundHalfAway_neg, roundHalfAway_of_nonneg hnonneg]
  · rw [roundHalfAway_of_nonneg hnonneg]

theorem abs_toRat_mul (x : Binary64) (n : ℕ) : |x.toRat * 2 ^ n| = x.magnitude * 2 ^ n := by
  rw [abs_mul, Binary64.abs_toRat, abs_of_pos (by positivity)]

/-- Fixed-point numbers from binary64 are exact rounding, half away from zero, for fewer than
`2 ^ 62` fractional bits. -/
theorem ofBinary64_eq_roundHalfAway (x : Binary64) (n : ℕ) (hn : n < 2 ^ 62) :
    FixedPoint.ofBinary64 x n =
        .ok (if x.isFinite ∧ |x.toRat * 2 ^ n| < 2 ^ 256 then
          some ⟨roundHalfAway (x.toRat * 2 ^ n), n⟩ else none) ∧
      (FixedPoint.rawOfBinary64? x n).map (Option.map fun r => (r.abs.toNat, r.negative)) =
        .ok (if x.isFinite ∧ |x.toRat * 2 ^ n| < 2 ^ 256 then
          some ((roundHalfAway (x.toRat * 2 ^ n)).natAbs,
            decide (roundHalfAway (x.toRat * 2 ^ n) < 0))
        else none) := by
  unfold FixedPoint.ofBinary64
  rw [FixedPoint.rawOfBinary64?_eq x hn, abs_toRat_mul, roundHalfAway_toRat_mul]
  simp only [Except.map, Except.ok.injEq]
  by_cases hc : x.isFinite ∧ x.magnitude * 2 ^ n < 2 ^ 256
  · have hk := FixedPoint.scaledMagnitude?_lt
      ((FixedPoint.scaledMagnitude?_eq x hn).trans (congrArg Except.ok (if_pos hc.2)))
    rw [if_pos hc, if_pos hc, if_pos hc]
    generalize ⌊x.magnitude * 2 ^ n + 1 / 2⌋₊ = k at hk ⊢
    have hnat : (BitVec.ofNat 256 k).toNat = k := by rw [BitVec.toNat_ofNat, Nat.mod_eq_of_lt hk]
    cases x.sign with
    | false => simp [I256.new, I256.toInt, hnat]
    | true =>
      -- a negative input whose magnitude rounds to zero gives the non-negative zero
      rcases Nat.eq_zero_or_pos k with rfl | hpos
      · simp [I256.new, I256.toInt]
      · have hne : BitVec.ofNat 256 k ≠ 0#256 := fun h =>
          hpos.ne' (by simpa [hnat] using congrArg BitVec.toNat h)
        simp [I256.new, I256.toInt, hnat, hne, hpos]
  · rw [if_neg hc, if_neg hc, if_neg hc]
    exact ⟨rfl, rfl⟩

theorem ofBinary64_eq_roundHalfAway_sample :
    (0 : ℕ) < 2 ^ 62 ∧
      FixedPoint.ofBinary64 ⟨0xC004000000000000⟩ 0 =
          .ok (if (⟨0xC004000000000000⟩ : Binary64).isFinite ∧
              |(⟨0xC004000000000000⟩ : Binary64).toRat * 2 ^ 0| < 2 ^ 256 then
            some ⟨roundHalfAway ((⟨0xC004000000000000⟩ : Binary64).toRat * 2 ^ 0), 0⟩ else none) ∧
        (FixedPoint.rawOfBinary64? ⟨0xC004000000000000⟩ 0).map
            (Option.map fun r => (r.abs.toNat, r.negative)) =
          .ok (if (⟨0xC004000000000000⟩ : Binary64).isFinite ∧
              |(⟨0xC004000000000000⟩ : Binary64).toRat * 2 ^ 0| < 2 ^ 256 then
            some ((roundHalfAway ((⟨0xC004000000000000⟩ : Binary64).toRat * 2 ^ 0)).natAbs,
              decide (roundHalfAway ((⟨0xC004000000000000⟩ : Binary64).toRat * 2 ^ 0) < 0))
          else none) :=
  ⟨by decide, ofBinary64_eq_roundHalfAway _ 0 (by decide)⟩

example : FixedPoint.ofBinary64 ⟨0xC004000000000000⟩ 0 = .ok (some ⟨-3, 0⟩) := by decide

end ContractAbi
