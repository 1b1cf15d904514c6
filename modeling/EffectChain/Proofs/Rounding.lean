import EffectChain.Binary
import Mathlib.Algebra.Order.Field.Power
import Mathlib.Data.Rat.Cast.Order
import Mathlib.Tactic.GCongr
import Mathlib.Tactic.Linarith
import Mathlib.Tactic.Positivity
import Mathlib.Tactic.Ring

/-!
# The error of rounding

A ratio is rounded to a multiple of the power of two that its binade prescribes, so the magnitude
that the bits stand for is at most half of it away (`BinaryFormat.abs_value_roundRatio_sub_le`). A
whole number that fits the significand is on the grid, and is not changed
(`BinaryFormat.value_roundRatio_one`).
-/

namespace EffectChain.BinaryFormat

/-! ## Rounding to a whole number -/

theorem roundHalfEven_bounds (num : ℕ) {den : ℕ} (hden : 0 < den) :
    2 * num ≤ (2 * roundHalfEven num den + 1) * den ∧
      2 * roundHalfEven num den * den ≤ 2 * num + den := by
  have hsplit := Nat.div_add_mod num den
  have hlt := Nat.mod_lt num hden
  rw [roundHalfEven]
  generalize num / den = q at hsplit
  generalize num % den = r at hsplit hlt
  subst hsplit
  split
  · constructor <;> nlinarith
  · split
    · constructor <;> nlinarith
    · split <;> constructor <;> nlinarith

theorem abs_roundHalfEven_sub_le (num : ℕ) {den : ℕ} (hden : 0 < den) :
    |(roundHalfEven num den : ℚ) - num / den| ≤ 1 / 2 := by
  have hden' : (0 : ℚ) < den := by exact_mod_cast hden
  obtain ⟨hlow, hhigh⟩ := roundHalfEven_bounds num hden
  have hlow : (2 : ℚ) * num ≤ (2 * roundHalfEven num den + 1) * den := by exact_mod_cast hlow
  have hhigh : (2 : ℚ) * roundHalfEven num den * den ≤ 2 * num + den := by exact_mod_cast hhigh
  have hnum : (num : ℚ) = num / den * den := (div_mul_cancel₀ _ hden'.ne').symm
  generalize (num : ℚ) / den = x at hnum ⊢
  rw [hnum] at hlow hhigh
  have hlow : 2 * x ≤ 2 * roundHalfEven num den + 1 :=
    le_of_mul_le_mul_right (by linarith) hden'
  have hhigh : 2 * (roundHalfEven num den : ℚ) ≤ 2 * x + 1 :=
    le_of_mul_le_mul_right (by linarith) hden'
  rw [abs_le]
  constructor <;> linarith

/-- A ratio that is less than half away from a whole number is rounded to it. -/
theorem roundHalfEven_eq {num den n : ℕ} (hden : 0 < den) (h : |(num : ℚ) / den - n| < 1 / 2) :
    roundHalfEven num den = n := by
  have hround := abs_roundHalfEven_sub_le num hden
  rw [abs_le] at hround
  rw [abs_lt] at h
  have hlt : (roundHalfEven num den : ℚ) < n + 1 := by linarith
  have hgt : (n : ℚ) < roundHalfEven num den + 1 := by linarith
  have hlt : roundHalfEven num den < n + 1 := by exact_mod_cast hlt
  have hgt : n < roundHalfEven num den + 1 := by exact_mod_cast hgt
  omega

/-- Rounding does not pass a whole number, neither upwards nor downwards. -/
theorem le_of_abs_sub_le_half {r m : ℕ} {x : ℚ} (h : |(r : ℚ) - x| ≤ 1 / 2) (hx : x < m) :
    r ≤ m := by
  rw [abs_le] at h
  have hlt : (r : ℚ) < m + 1 := by linarith
  exact Nat.le_of_lt_succ (by exact_mod_cast hlt)

theorem ge_of_abs_sub_le_half {r m : ℕ} {x : ℚ} (h : |(r : ℚ) - x| ≤ 1 / 2) (hx : (m : ℚ) ≤ x) :
    m ≤ r := by
  rw [abs_le] at h
  have hlt : (m : ℚ) < r + 1 := by linarith
  exact Nat.le_of_lt_succ (by exact_mod_cast hlt)

/-! ## Ratios -/

theorem scaleRatio_div (num den : ℕ) (e : ℤ) :
    ((scaleRatio num den e).1 : ℚ) / (scaleRatio num den e).2 = num / den * 2 ^ e := by
  rw [scaleRatio]
  split
  · rename_i he
    obtain ⟨k, rfl⟩ := Int.eq_ofNat_of_zero_le he
    rw [Nat.shiftLeft_eq]
    push_cast
    rw [Int.toNat_natCast, zpow_natCast]
    ring
  · rename_i he
    obtain ⟨k, hk⟩ := Int.eq_ofNat_of_zero_le (by omega : 0 ≤ -e)
    rw [hk, show e = -(k : ℤ) by omega, Nat.shiftLeft_eq]
    push_cast
    rw [Int.toNat_natCast, zpow_neg, zpow_natCast, ← div_div, div_eq_mul_inv _ ((2 : ℚ) ^ k)]

theorem scaleRatio_pos (num : ℕ) {den : ℕ} (hden : 0 < den) (e : ℤ) :
    0 < (scaleRatio num den e).2 := by
  rw [scaleRatio]
  split
  · exact hden
  · rw [Nat.shiftLeft_eq]
    positivity

theorem exists_binade {num den : ℕ} (hnum : num ≠ 0) (hden : den ≠ 0) :
    ∃ binade : ℤ,
      (let guess : ℤ := (num.log2 : ℤ) - den.log2
        if (scaleRatio num den (-guess)).2 ≤ (scaleRatio num den (-guess)).1 then guess
        else guess - 1) = binade ∧
      (2 : ℚ) ^ binade ≤ num / den ∧ (num : ℚ) / den < 2 ^ (binade + 1) := by
  have hnum₁ : (2 : ℚ) ^ num.log2 ≤ num := by exact_mod_cast Nat.log2_self_le hnum
  have hnum₂ : (num : ℚ) < 2 ^ (num.log2 + 1) := by exact_mod_cast Nat.lt_log2_self
  have hden₁ : (2 : ℚ) ^ den.log2 ≤ den := by exact_mod_cast Nat.log2_self_le hden
  have hden₂ : (den : ℚ) < 2 ^ (den.log2 + 1) := by exact_mod_cast Nat.lt_log2_self
  have hdenpos : (0 : ℚ) < den := by positivity
  generalize num.log2 = a at hnum₁ hnum₂ ⊢
  generalize den.log2 = b at hden₁ hden₂ ⊢
  refine ⟨_, rfl, ?_⟩
  dsimp only
  -- the guess is off by one at most
  have hlow : (2 : ℚ) ^ ((a : ℤ) - b - 1) ≤ num / den := by
    rw [le_div_iff₀ hdenpos]
    calc (2 : ℚ) ^ ((a : ℤ) - b - 1) * den ≤ 2 ^ ((a : ℤ) - b - 1) * 2 ^ (b + 1) := by gcongr
      _ = 2 ^ a := by
        rw [← zpow_natCast, ← zpow_natCast, ← zpow_add₀ two_ne_zero]
        congr 1
        push_cast
        ring
      _ ≤ num := hnum₁
  have hhigh : (num : ℚ) / den < 2 ^ ((a : ℤ) - b + 1) := by
    rw [div_lt_iff₀ hdenpos]
    calc (num : ℚ) < 2 ^ (a + 1) := hnum₂
      _ = 2 ^ ((a : ℤ) - b + 1) * 2 ^ b := by
        rw [← zpow_natCast, ← zpow_natCast, ← zpow_add₀ two_ne_zero]
        congr 1
        push_cast
        ring
      _ ≤ 2 ^ ((a : ℤ) - b + 1) * den := by gcongr
  -- the comparison after it tells which of the two binades it is
  have hcompare : (scaleRatio num den (-((a : ℤ) - b))).2 ≤ (scaleRatio num den (-((a : ℤ) - b))).1
      ↔ (2 : ℚ) ^ ((a : ℤ) - b) ≤ num / den := by
    have hpos := scaleRatio_pos num (Nat.pos_of_ne_zero hden) (-((a : ℤ) - b))
    have hscaled := scaleRatio_div num den (-((a : ℤ) - b))
    generalize scaleRatio num den (-((a : ℤ) - b)) = x at hpos hscaled ⊢
    have hpos' : (0 : ℚ) < x.2 := by exact_mod_cast hpos
    rw [← Nat.cast_le (α := ℚ), ← one_le_div hpos', hscaled, zpow_neg, ← div_eq_mul_inv,
      one_le_div (by positivity)]
  split
  · exact ⟨hcompare.mp ‹_›, hhigh⟩
  · refine ⟨hlow, ?_⟩
    rw [sub_add_cancel]
    exact not_le.mp fun h ↦ ‹¬_› (hcompare.mpr h)

/-! ## Magnitudes -/

/-- The magnitude that finite bits stand for. -/
def value (f : BinaryFormat) (bits : ℕ) : ℚ := (f.decode bits).1 * 2 ^ (f.decode bits).2

theorem value_eq_scaleRatio (f : BinaryFormat) (bits : ℕ) :
    ((scaleRatio (f.decode bits).1 1 (f.decode bits).2).1 : ℚ)
      / (scaleRatio (f.decode bits).1 1 (f.decode bits).2).2 = f.value bits := by
  rw [scaleRatio_div, value, Nat.cast_one, div_one]

/-- The grid of an exponent, up to the first point of the next binade. -/
theorem value_grid (f : BinaryFormat) {r steps : ℕ} (hr : r ≤ 2 * f.hiddenBit)
    (hsteps : steps = 0 ∨ f.hiddenBit ≤ r) :
    f.value (steps * f.hiddenBit + r) = r * 2 ^ (f.minExponent + steps) := by
  have hpos : 0 < f.hiddenBit := by
    rw [hiddenBit, Nat.shiftLeft_eq]
    positivity
  rw [value]
  rcases Nat.lt_or_ge r f.hiddenBit with hsmall | hlarge
  · -- a subnormal number, so the exponent is the smallest one
    obtain rfl := hsteps.resolve_right (Nat.not_le.mpr hsmall)
    rw [decode, Nat.zero_mul, Nat.zero_add, Nat.div_eq_of_lt hsmall, Nat.mod_eq_of_lt hsmall]
    simp
  · rcases Nat.lt_or_ge r (2 * f.hiddenBit) with hinside | hnext
    · obtain ⟨fraction, rfl⟩ := Nat.exists_eq_add_of_le hlarge
      have hfraction : fraction < f.hiddenBit := by omega
      have hsplit : steps * f.hiddenBit + (f.hiddenBit + fraction)
          = fraction + f.hiddenBit * (steps + 1) := by ring
      rw [hsplit, decode, Nat.add_mul_mod_self_left, Nat.add_mul_div_left _ _ hpos,
        Nat.mod_eq_of_lt hfraction, Nat.div_eq_of_lt hfraction]
      simp [Nat.add_comm]
    · -- the first point of the next binade
      obtain rfl : r = 2 * f.hiddenBit := Nat.le_antisymm hr hnext
      have hsplit : steps * f.hiddenBit + 2 * f.hiddenBit = 0 + f.hiddenBit * (steps + 2) := by ring
      rw [hsplit, decode, Nat.add_mul_mod_self_left, Nat.add_mul_div_left _ _ hpos, Nat.zero_mod,
        Nat.zero_div]
      have hexponent : f.minExponent + (((0 + (steps + 2) : ℕ) : ℤ) - 1)
          = f.minExponent + steps + 1 := by
        push_cast
        ring
      rw [if_neg (by omega), hexponent, zpow_add_one₀ two_ne_zero]
      push_cast
      ring

/-- **The bits of a ratio stand for a point of a grid**, which is not coarser than its size asks
for. -/
theorem exists_value_roundRatio (f : BinaryFormat) {num den : ℕ} (hnum : num ≠ 0) (hden : den ≠ 0)
    {size : ℤ} (hsize : (num : ℚ) / den < 2 ^ size)
    (hnormal : f.minExponent < size - f.fractionBits)
    (hfinite : size - f.fractionBits - f.minExponent + 1 < (2 ^ f.exponentBits : ℕ)) :
    ∃ e : ℤ, e < size - f.fractionBits ∧ f.value (f.roundRatio num den)
      = roundHalfEven (scaleRatio num den (-e)).1 (scaleRatio num den (-e)).2 * 2 ^ e := by
  obtain ⟨binade, hbinade, hlow, hhigh⟩ := exists_binade hnum hden
  have hlt : binade < size :=
    (zpow_lt_zpow_iff_right₀ one_lt_two).mp (hlow.trans_lt hsize)
  rw [roundRatio, if_neg hnum]
  dsimp only at hbinade ⊢
  rw [hbinade]
  generalize he : max (binade - f.fractionBits) f.minExponent = e
  have hmin : f.minExponent ≤ e := he ▸ le_max_right _ _
  have hgrid : binade - f.fractionBits ≤ e := he ▸ le_max_left _ _
  obtain ⟨steps, hsteps⟩ := Int.eq_ofNat_of_zero_le (sub_nonneg.mpr hmin)
  have hhidden : f.hiddenBit = 2 ^ f.fractionBits := by rw [hiddenBit, Nat.shiftLeft_eq, one_mul]
  have hscaled := scaleRatio_div num den (-e)
  have hround := abs_roundHalfEven_sub_le (scaleRatio num den (-e)).1
    (scaleRatio_pos num (Nat.pos_of_ne_zero hden) (-e))
  rw [hscaled] at hround
  refine ⟨e, by omega, ?_⟩
  generalize roundHalfEven (scaleRatio num den (-e)).1 (scaleRatio num den (-e)).2 = r at hround ⊢
  -- rounding up may reach the next binade, but not pass it
  have hr : r ≤ 2 * f.hiddenBit := by
    rw [hhidden, ← Nat.pow_succ']
    refine le_of_abs_sub_le_half hround ?_
    calc (num : ℚ) / den * 2 ^ (-e) < 2 ^ (binade + 1) * 2 ^ (-e) := by gcongr
      _ = 2 ^ (binade + 1 - e) := (zpow_add₀ two_ne_zero _ _).symm
      _ ≤ 2 ^ ((f.fractionBits : ℤ) + 1) := zpow_le_zpow_right₀ one_le_two (by omega)
      _ = (2 ^ (f.fractionBits + 1) : ℕ) := by exact_mod_cast rfl
  -- above the subnormal range the hidden bit is set
  have hnext : steps = 0 ∨ f.hiddenBit ≤ r := by
    refine (Nat.eq_zero_or_pos steps).imp_right fun hpos ↦ ?_
    rw [hhidden]
    refine ge_of_abs_sub_le_half hround ?_
    calc ((2 ^ f.fractionBits : ℕ) : ℚ) = 2 ^ (binade + -e) := by
          rw [show binade + -e = f.fractionBits by omega, zpow_natCast]
          push_cast
          rfl
      _ = 2 ^ binade * 2 ^ (-e) := zpow_add₀ two_ne_zero _ _
      _ ≤ num / den * 2 ^ (-e) := by gcongr
  -- so the bits stay below those of infinity, and nothing is cut off
  have hinfinity : (e - f.minExponent).toNat * f.hiddenBit + r ≤ f.infinity := by
    have hfits : steps + 2 ≤ 1 <<< f.exponentBits - 1 := by
      rw [Nat.shiftLeft_eq, one_mul]
      omega
    rw [hsteps, Int.toNat_natCast, infinity]
    calc steps * f.hiddenBit + r ≤ steps * f.hiddenBit + 2 * f.hiddenBit := by gcongr
      _ = (steps + 2) * f.hiddenBit := (Nat.add_mul _ _ _).symm
      _ ≤ (1 <<< f.exponentBits - 1) * f.hiddenBit := by gcongr
  rw [min_eq_left hinfinity, hsteps, Int.toNat_natCast, value_grid f hr hnext]
  congr 2
  omega

/-- **Rounding a ratio** makes an error of half a step of the grid at most. -/
theorem abs_value_roundRatio_sub_le (f : BinaryFormat) {num den : ℕ} (hnum : num ≠ 0)
    (hden : den ≠ 0) {size : ℤ} (hsize : (num : ℚ) / den < 2 ^ size)
    (hnormal : f.minExponent < size - f.fractionBits)
    (hfinite : size - f.fractionBits - f.minExponent + 1 < (2 ^ f.exponentBits : ℕ)) :
    |f.value (f.roundRatio num den) - num / den| ≤ 2 ^ (size - f.fractionBits - 2) := by
  obtain ⟨e, he, hvalue⟩ := f.exists_value_roundRatio hnum hden hsize hnormal hfinite
  have hround := abs_roundHalfEven_sub_le (scaleRatio num den (-e)).1
    (scaleRatio_pos num (Nat.pos_of_ne_zero hden) (-e))
  have hratio : (num : ℚ) / den = num / den * 2 ^ (-e) * 2 ^ e := by
    rw [mul_assoc, ← zpow_add₀ two_ne_zero, neg_add_cancel, zpow_zero, mul_one]
  rw [scaleRatio_div] at hround
  rw [hvalue]
  generalize roundHalfEven (scaleRatio num den (-e)).1 (scaleRatio num den (-e)).2 = r at hround ⊢
  calc |(r : ℚ) * 2 ^ e - num / den| = |(r : ℚ) - num / den * 2 ^ (-e)| * 2 ^ e := by
        nth_rewrite 1 [hratio]
        rw [← sub_mul, abs_mul, abs_of_pos (show (0 : ℚ) < 2 ^ e by positivity)]
    _ ≤ 1 / 2 * 2 ^ e := by gcongr
    _ = 2 ^ (e - 1) := by rw [zpow_sub_one₀ two_ne_zero, one_div, mul_comm]
    _ ≤ 2 ^ (size - f.fractionBits - 2) := zpow_le_zpow_right₀ one_le_two (by omega)

theorem roundHalfEven_one (n : ℕ) : roundHalfEven n 1 = n := by
  simp [roundHalfEven, Nat.mod_one]

/-- **A whole number that fits the significand** is not changed. -/
theorem value_roundRatio_one (f : BinaryFormat) {n : ℕ} (hn : n < 2 ^ (f.fractionBits + 1))
    (hnormal : f.minExponent < 1) (hfinite : 2 - f.minExponent < (2 ^ f.exponentBits : ℕ)) :
    f.value (f.roundRatio n 1) = n := by
  by_cases hzero : n = 0
  · subst hzero
    rw [roundRatio, if_pos rfl, value, decode]
    simp
  · have hsize : (n : ℚ) / (1 : ℕ) < 2 ^ ((f.fractionBits : ℤ) + 1) := by
      rw [Nat.cast_one, div_one]
      exact_mod_cast hn
    obtain ⟨e, he, hvalue⟩ := f.exists_value_roundRatio hzero one_ne_zero hsize
      (by omega) (by omega)
    obtain ⟨k, hk⟩ := Int.eq_ofNat_of_zero_le (by omega : 0 ≤ -e)
    rw [hvalue, scaleRatio, if_pos (by omega), roundHalfEven_one, Nat.shiftLeft_eq, hk,
      show e = -(k : ℤ) by omega, Int.toNat_natCast, zpow_neg, zpow_natCast]
    push_cast
    exact mul_inv_cancel_right₀ (by positivity) _

end EffectChain.BinaryFormat
