import EffectChain.CommandLine.Text
import EffectChain.Proofs.Rounding

/-!
# Durations as they are written

A duration is divided in double precision and written with a fixed number of places. If the quotient
has no more places than that, the error of the division is too small to show, so what is written is
exact (`CommandLine.quotientText_eq`). In particular a multiple of 100 microseconds is written
digit by digit (`CommandLine.durationText_passes`).
-/

namespace EffectChain.CommandLine

open BinaryFormat

/-- A number of units of the last of some places, in positional notation. -/
def withPlaces (places units : ℕ) : String :=
  let digits := Nat.toDigits 10 units
  let padded := List.replicate (places + 1 - digits.length) '0' ++ digits
  String.ofList (padded.take (padded.length - places)
    ++ '.' :: padded.drop (padded.length - places))

theorem fixed_eq {places num den units : ℕ} (h : roundHalfEven (num * 10 ^ places) den = units) :
    Decimal.fixed places num den = withPlaces places units := by
  subst h
  rfl

/-- **A quotient that has no more places than are asked for** is written exactly. -/
theorem quotientText_eq {n divisor places units : ℕ} (hn : n < 2 ^ 53) (hpos : n ≠ 0)
    (hdivisor : divisor ≠ 0) (hunits : units * divisor = n * 10 ^ places)
    (hsize : n < 2 ^ 34 * divisor) (hplaces : 10 ^ places < 2 ^ 19) :
    quotientText n divisor places = withPlaces places units := by
  let ratio (bits : ℕ) : ℕ × ℕ := scaleRatio (double.decode bits).1 1 (double.decode bits).2
  let x := ratio (double.roundRatio n 1)
  let y := ratio (double.roundRatio x.1 (x.2 * divisor))
  change Decimal.fixed places y.1 y.2 = _
  refine fixed_eq ?_
  -- the dividend is a double exactly
  have hx : (x.1 : ℚ) / x.2 = n :=
    (value_eq_scaleRatio _ _).trans (double.value_roundRatio_one hn (by decide) (by decide))
  have hxden : x.2 ≠ 0 := (scaleRatio_pos _ one_pos _).ne'
  have hxnum : x.1 ≠ 0 := by
    intro hzero
    rw [hzero, Nat.cast_zero, zero_div] at hx
    exact hpos (by exact_mod_cast hx.symm)
  have hdivisor' : (0 : ℚ) < divisor := by positivity
  have hquotient : (x.1 : ℚ) / ((x.2 * divisor : ℕ) : ℚ) = units / 10 ^ places := by
    have hunits : (units : ℚ) * divisor = n * 10 ^ places := by exact_mod_cast hunits
    rw [Nat.cast_mul, ← div_div, hx, div_eq_div_iff hdivisor'.ne' (by positivity), ← hunits]
  have hlt : (x.1 : ℚ) / ((x.2 * divisor : ℕ) : ℚ) < 2 ^ (34 : ℤ) := by
    rw [Nat.cast_mul, ← div_div, hx, div_lt_iff₀ hdivisor']
    exact_mod_cast hsize
  -- so only the division rounds, and its error is less than half of the last place
  have herror := double.abs_value_roundRatio_sub_le hxnum (mul_ne_zero hxden hdivisor) hlt
    (by decide) (by decide)
  rw [hquotient, ← value_eq_scaleRatio] at herror
  refine roundHalfEven_eq (scaleRatio_pos _ one_pos _) ?_
  have hplaces' : (10 : ℚ) ^ places < 2 ^ 19 := by exact_mod_cast hplaces
  have hpow : (0 : ℚ) < 10 ^ places := by positivity
  have hscaled : ((y.1 * 10 ^ places : ℕ) : ℚ) / y.2 - units
      = ((y.1 : ℚ) / y.2 - units / 10 ^ places) * 10 ^ places := by
    rw [sub_mul, div_mul_cancel₀ _ hpow.ne']
    push_cast
    ring
  calc |((y.1 * 10 ^ places : ℕ) : ℚ) / y.2 - units|
      = |(y.1 : ℚ) / y.2 - units / 10 ^ places| * 10 ^ places := by
        rw [hscaled, abs_mul, abs_of_pos hpow]
    _ ≤ 2 ^ (-20 : ℤ) * 10 ^ places := by
        gcongr
        exact herror
    _ < 2 ^ (-20 : ℤ) * 2 ^ 19 := by gcongr
    _ = 1 / 2 := by norm_num

/-! ## Whole passes -/

/-- The time of passes that take 100 microseconds each. -/
def passesText (passes : ℕ) : String :=
  if passes < 10 then toString (100 * passes) ++ ".0 us"
  else toString (passes / 10) ++ "." ++ toString (passes % 10) ++ "00 ms"

theorem toDigits_mul_ten {n : ℕ} (hn : n ≠ 0) :
    Nat.toDigits 10 (10 * n) = Nat.toDigits 10 n ++ ['0'] := by
  rw [Nat.toDigits_eq_if (by decide), if_neg (by omega), Nat.mul_div_cancel_left _ (by decide),
    Nat.mul_mod_right]
  rfl

theorem withPlaces_passes {passes : ℕ} (h : 10 ≤ passes) : withPlaces 3 (100 * passes)
    = toString (passes / 10) ++ "." ++ toString (passes % 10) ++ "00" := by
  have hdigits : Nat.toDigits 10 (100 * passes)
      = Nat.toDigits 10 (passes / 10) ++ [(passes % 10).digitChar, '0', '0'] := by
    rw [show 100 * passes = 10 * (10 * passes) by ring, toDigits_mul_ten (by omega),
      toDigits_mul_ten (by omega), Nat.toDigits_eq_if (n := passes) (by decide),
      if_neg (by omega)]
    simp
  have hlast : Nat.toDigits 10 (passes % 10) = [(passes % 10).digitChar] :=
    Nat.toDigits_of_lt_base (Nat.mod_lt _ (by decide))
  have hpos : 0 < (Nat.toDigits 10 (passes / 10)).length :=
    List.length_pos_of_ne_nil Nat.toDigits_ne_nil
  rw [Nat.toString_eq_ofList_toDigits, Nat.toString_eq_ofList_toDigits, hlast, withPlaces, hdigits]
  generalize Nat.toDigits 10 (passes / 10) = whole at hpos ⊢
  have hpad : 3 + 1 - (whole ++ [(passes % 10).digitChar, '0', '0']).length = 0 := by
    rw [List.length_append, List.length_cons, List.length_cons, List.length_singleton]
    omega
  rw [hpad]
  apply String.toList_injective
  simp [String.toList_append]

/-- **A multiple of 100 microseconds is written exactly**, from one millisecond on with three places
in milliseconds, else with one place in microseconds. -/
theorem durationText_passes {passes : ℕ} (h : 100000 * passes < 2 ^ 53) {n : UInt64}
    (hn : n.toNat = 100000 * passes) : durationText n = passesText passes := by
  rw [passesText]
  split
  · rename_i hfew
    have hall : ∀ p < 10, durationText (UInt64.ofNat (100000 * p))
        = toString (100 * p) ++ ".0 us" := by decide +kernel
    have hword : n = UInt64.ofNat (100000 * passes) := by
      rw [← hn, UInt64.ofNat_toNat]
    rw [hword, hall passes hfew]
  · rename_i hmany
    have hms : 1000000 ≤ n := by
      rw [UInt64.le_iff_toNat_le, hn]
      change 1000000 ≤ _
      omega
    have htext : quotientText (100000 * passes) 1000000 3 = withPlaces 3 (100 * passes) :=
      quotientText_eq h (by omega) (by decide) (by omega) (by omega) (by decide)
    rw [durationText, if_pos hms, hn, htext, withPlaces_passes (by omega)]
    simp [String.append_assoc]

end EffectChain.CommandLine
