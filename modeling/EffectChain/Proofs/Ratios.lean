import EffectChain.Depth.Selector
import Mathlib

/-!
# Ratios of sides

Whether a candidate has the size of the backbuffer is decided by ratios of their sides in single
precision. Sides of more than 24 bits are rounded on the way, and so is every ratio, so it is no
matter of course that a size matches itself. It does (`DepthCandidate.matchesAspect_self`). A
rounded side keeps 24 bits and an exponent far from either end of the range (`Single.Normal`), a
quotient of two such numbers is one again, and dividing such a number by itself, or taking it from
itself, is exact.

The arithmetic is that of the logical model of `Float32`. Only what the ratios need is proved of it:
which exponents come out of a rounding, and that packing a number and unpacking it again loses
nothing.
-/

namespace EffectChain

namespace Single

open Float.Model (totalExponent UnpackedFloat)
open Float.Model.Format (binary32)
open Float.Model.UnpackedFloat

/-! ## Packing -/

/-- The mantissa has all of its 24 bits in use, and the exponent is one of a number. -/
structure Fits (m : Nat) (e : Int) : Prop where
  mantissa : m.log2 = 23
  lower : -149 ≤ e
  upper : e ≤ 104

theorem unpackSign_packComponents {spec : Float.Model.Format} (s : Sign)
    (e : BitVec spec.exponentBits) (m : BitVec spec.mantissaBitsWithoutImplicit) :
    unpackSign (packComponents spec s e m) = s.toBitVec := by
  ext i hi
  obtain rfl : i = 0 := by omega
  simp [unpackSign, packComponents, BitVec.getLsbD_append, BitVec.getElem_append]

theorem unpack_pack {m : Nat} {e : Int} (h : Fits m e) (hpos : 0 < m) :
    (Float32.Model.pack (.finite .positive m e hpos)).unpack = .finite .positive m e hpos := by
  obtain ⟨hlog, hlower, hupper⟩ := h
  obtain ⟨hm, hm'⟩ := (Nat.log2_eq_iff (Nat.ne_of_gt hpos)).mp hlog
  obtain ⟨k, hk⟩ : ∃ k : Nat, e + 150 = k := ⟨(e + 150).toNat, by omega⟩
  have hbias : (binary32.exponentBias : Int) = 127 := rfl
  have hpack : pack binary32 (.finite .positive m e hpos)
      = packComponents binary32 .positive (BitVec.ofNat 8 k) (BitVec.ofNat 23 m) := by
    have hbiased : (e + (binary32.exponentBias : Int)
        + (binary32.mantissaBitsWithoutImplicit : Int)).toNat = k := by
      have hbits : (binary32.mantissaBitsWithoutImplicit : Int) = 23 := rfl
      omega
    rw [pack]
    dsimp only
    rw [hbiased, if_neg (by omega), if_pos (by rw [hlog]; rfl)]
  have hexponent : (BitVec.ofNat 8 k).toNat = k := by
    rw [BitVec.toNat_ofNat]
    exact Nat.mod_eq_of_lt (by omega)
  -- the highest bit of the mantissa is left out, and put back in front of the others
  have hmantissa : (1#1 ++ BitVec.ofNat 23 m).toNat = m := by
    rw [BitVec.toNat_append, ← Nat.shiftLeft_add_eq_or_of_lt (BitVec.isLt _), BitVec.toNat_ofNat]
    simp [Nat.shiftLeft_eq]
    omega
  have hne (x : BitVec 8) (hx : x.toNat ≠ k) : BitVec.ofNat 8 k ≠ x := by
    rintro rfl
    exact hx hexponent
  change unpack binary32 (pack binary32 _) = _
  rw [hpack, unpack]
  simp only [unpackExponent_packComponents, unpackMantissa_packComponents,
    unpackSign_packComponents, hmantissa]
  rw [if_neg (hne (-1#8) (show 255 ≠ k by omega)), if_neg (hne 0#8 (show 0 ≠ k by omega))]
  congr 1
  rw [hexponent]
  omega

/-! ## Rounding -/

theorem log2_shiftLeft {n : Nat} (h : n ≠ 0) (k : Nat) : (n <<< k).log2 = n.log2 + k := by
  induction k with
  | zero => rfl
  | succ k ih =>
    have hne : n <<< k ≠ 0 := by
      rw [Nat.shiftLeft_eq]
      exact Nat.mul_ne_zero h (Nat.ne_of_gt (Nat.two_pow_pos k))
    rw [Nat.shiftLeft_succ, Nat.log2_two_mul hne, ih, Nat.add_assoc]

theorem log2_div {m : Nat} (hm : 23 ≤ m.log2) : (m / 2 ^ (m.log2 - 23)).log2 = 23 := by
  have hpos : m ≠ 0 := by
    rintro rfl
    cases hm
  have hsplit (k : Nat) : 2 ^ (k + 23) * 2 ^ (m.log2 - 23) = 2 ^ (m.log2 + k) := by
    rw [← Nat.pow_add]
    congr 1
    omega
  have hle : 2 ^ 23 ≤ m / 2 ^ (m.log2 - 23) := by
    rw [Nat.le_div_iff_mul_le (Nat.two_pow_pos _)]
    exact (hsplit 0).trans_le (Nat.log2_self_le hpos)
  refine (Nat.log2_eq_iff (by omega)).mpr ⟨hle, ?_⟩
  rw [Nat.div_lt_iff_lt_mul (Nat.two_pow_pos _)]
  exact Nat.lt_log2_self.trans_eq (hsplit 1).symm

theorem mantissa_shiftRight (x : ExtendedMantissa) (k : Nat) :
    (x >>> k).mantissa = x.mantissa / 2 ^ k := by
  induction k with
  | zero => exact (Nat.div_one _).symm
  | succ k ih =>
    change (x >>> k).mantissa / 2 = _
    rw [ih, Nat.div_div_eq_div_mul, Nat.pow_succ]

theorem roundedMantissa_cases (x : ExtendedMantissa) :
    x.roundedMantissa = x.mantissa ∨ x.roundedMantissa = x.mantissa + 1 := by
  obtain ⟨m, round, sticky⟩ := x
  cases round <;> cases sticky <;>
    simp [ExtendedMantissa.roundedMantissa, ExtendedMantissa.accuracy, Accuracy.roundToNearestEven]
  omega

theorem targetExponent_eq {e : Int} (he : -149 ≤ e) : binary32.targetExponent (e + 24) = e := by
  have hbits : (binary32.mantissaBits : Int) = 24 := rfl
  have hmin : binary32.minExponent = -149 := rfl
  rw [Float.Model.Format.targetExponent, hbits, hmin]
  omega

/-- Shifting to the target exponent leaves 24 bits of the mantissa. -/
theorem shiftToTargetExponent_eq {m : Nat} {e : Int} (accuracy : Accuracy) (hm : 23 ≤ m.log2)
    (he : -149 ≤ m.log2 + e - 23) :
    (shiftToTargetExponent binary32 m e accuracy).1.mantissa = m / 2 ^ (m.log2 - 23) ∧
      (shiftToTargetExponent binary32 m e accuracy).2 = m.log2 + e - 23 := by
  have htotal : totalExponent m e = m.log2 + e - 23 + 24 := by
    rw [totalExponent]
    omega
  have hshift : (m.log2 + e - 23 - e).toNat = m.log2 - 23 := by omega
  have hmantissa : (ExtendedMantissa.ofMantissaAndAccuracy m accuracy).mantissa = m := by
    rcases accuracy with _ | _ | _ | _ <;> rfl
  rw [shiftToTargetExponent, shiftToExponent, htotal, targetExponent_eq he, hshift]
  constructor
  · rw [mantissa_shiftRight, hmantissa]
  · dsimp only
    omega

/-- **What is rounded fits**, as long as its exponent does. -/
theorem fits_of_round (s : Sign) {m : Nat} {e : Int} (accuracy : Accuracy)
    (hm : 23 ≤ m.log2) (hlower : -149 ≤ m.log2 + e - 23) (hupper : m.log2 + e - 23 < 104) :
    ∃ m' e' hpos, Fits m' e' ∧ (e' = m.log2 + e - 23 ∨ e' = m.log2 + e - 22) ∧
      roundWithAccuracy binary32 s m e accuracy = .finite s m' e' hpos := by
  obtain ⟨hmantissa, hexponent⟩ := shiftToTargetExponent_eq accuracy hm hlower
  generalize hfirst : shiftToTargetExponent binary32 m e accuracy = first at hmantissa hexponent
  have hlog := log2_div hm
  rw [← hmantissa] at hlog
  have hne : first.1.mantissa ≠ 0 := by
    intro h
    rw [h] at hlog
    cases hlog
  obtain ⟨hle, hlt⟩ := (Nat.log2_eq_iff hne).mp hlog
  -- rounding up can take one more bit, and is followed by another shift
  have hcarry : 23 ≤ first.1.roundedMantissa.log2 ∧ first.1.roundedMantissa.log2 < 25 := by
    have hcases := roundedMantissa_cases first.1
    rw [Nat.le_log2 (by omega), Nat.log2_lt (by omega)]
    omega
  obtain ⟨hagain, hlast⟩ := shiftToTargetExponent_eq (e := first.2) .exact hcarry.1 (by omega)
  generalize hsecond : shiftToTargetExponent binary32 first.1.roundedMantissa first.2 .exact
    = second at hagain hlast
  have hfits := log2_div hcarry.1
  rw [← hagain] at hfits
  have hnonzero : second.1.mantissa ≠ 0 := by
    intro h
    rw [h] at hfits
    cases hfits
  refine ⟨second.1.mantissa, second.2, Nat.pos_of_ne_zero hnonzero,
    ⟨hfits, by omega, by omega⟩, by omega, ?_⟩
  rw [roundWithAccuracy, hfirst]
  dsimp only
  rw [hsecond]
  exact dif_neg hnonzero

/-! ## Arithmetic -/

/-- The number is `m * 2 ^ e`, with a mantissa of 24 bits. -/
def Normal (x : Float32) (m : Nat) (e : Int) : Prop :=
  Fits m e ∧ ∃ hpos, x.toModel.unpack = .finite .positive m e hpos

theorem normal_toFloat32 {n : UInt32} (hn : n ≠ 0) :
    ∃ m e, Normal n.toFloat32 m e ∧ -23 ≤ e ∧ e ≤ 9 := by
  have hpos : n.toNat ≠ 0 := fun h ↦ hn (UInt32.toNat_inj.mp h)
  have hlog : n.toNat.log2 < 32 := (Nat.log2_lt hpos).mpr n.toNat_lt
  have htotal : totalExponent n.toNat 0 = (n.toNat.log2 : Int) - 23 + 24 := by
    rw [totalExponent]
    omega
  have hshift : ((0 : Int) - (n.toNat.log2 - 23)).toNat = 23 - n.toNat.log2 := by omega
  have hshifted := log2_shiftLeft hpos (23 - n.toNat.log2)
  obtain ⟨m, e, hm, hfits, he, hround⟩ := fits_of_round .positive
    (m := n.toNat <<< (23 - n.toNat.log2)) (e := 0 - ((23 - n.toNat.log2 : Nat) : Int)) .exact
    (by omega) (by omega) (by omega)
  have hnormalize : UnpackedFloat.normalize binary32 n.toNat 0 .positive
      = .finite .positive m e hm := by
    rw [UnpackedFloat.normalize, Int.compare_eq_gt.mpr (by omega)]
    dsimp only
    rw [Int.toNat_natCast, UnpackedFloat.round, htotal, targetExponent_eq (by omega),
      decreaseExponent, hshift]
    exact hround
  refine ⟨m, e, ⟨hfits, hm, ?_⟩, by omega, by omega⟩
  change (Float32.Model.pack (UnpackedFloat.normalize binary32 n.toNat 0 .positive)).unpack = _
  rw [hnormalize, unpack_pack hfits hm]

namespace Normal

variable {x y : Float32} {m m' : Nat} {e e' : Int}

theorem toModel_div (hx : Normal x m e) (hy : Normal y m' e') (hlower : -125 ≤ e - e') :
    (x / y).toModel = Float32.Model.pack (roundWithAccuracy binary32 .positive ((m <<< 24) / m')
      (e - e' - 24) (accuracyOfFraction ((m <<< 24) % m') m')) := by
  obtain ⟨hfits, hpos, hunpack⟩ := hx
  obtain ⟨hfits', hpos', hunpack'⟩ := hy
  have htotal : totalExponent m e - totalExponent m' e' = e - e' - 24 + 24 := by
    rw [totalExponent, totalExponent, hfits.mantissa, hfits'.mantissa]
    omega
  have hcore : divCore binary32 m e m' e' = ((m <<< 24) / m', e - e' - 24,
      accuracyOfFraction ((m <<< 24) % m') m') := by
    have hshift : (e - e' - (e - e' - 24)).toNat = 24 := by omega
    rw [divCore, htotal, targetExponent_eq (by omega), min_eq_right (by omega), hshift]
  change Float32.Model.pack (UnpackedFloat.div binary32 x.toModel.unpack y.toModel.unpack) = _
  rw [hunpack, hunpack', UnpackedFloat.div, hcore]
  rfl

/-- A quotient is a number of that kind again, unless the exponents are far apart. -/
theorem div (hx : Normal x m e) (hy : Normal y m' e') (hlower : -125 ≤ e - e')
    (hupper : e - e' < 127) : ∃ m e, Normal (x / y) m e := by
  have hdiv := hx.toModel_div hy hlower
  obtain ⟨⟨hlog, -, -⟩, hpos, -⟩ := hx
  obtain ⟨⟨hlog', -, -⟩, hpos', -⟩ := hy
  obtain ⟨hm, hlt⟩ := (Nat.log2_eq_iff (Nat.ne_of_gt hpos)).mp hlog
  obtain ⟨hm', hlt'⟩ := (Nat.log2_eq_iff (Nat.ne_of_gt hpos')).mp hlog'
  -- the quotient of the mantissas has 24 or 25 bits
  have hle : 2 ^ 23 ≤ (m <<< 24) / m' := by
    rw [Nat.le_div_iff_mul_le hpos', Nat.shiftLeft_eq]
    omega
  have hge : (m <<< 24) / m' < 2 ^ 25 := by
    rw [Nat.div_lt_iff_lt_mul hpos', Nat.shiftLeft_eq]
    omega
  have hne : (m <<< 24) / m' ≠ 0 := by omega
  have hlow := (Nat.le_log2 hne).mpr hle
  have hhigh := (Nat.log2_lt hne).mpr hge
  obtain ⟨m₂, e₂, hpos₂, hfits, -, hround⟩ := fits_of_round .positive (e := e - e' - 24)
    (accuracyOfFraction ((m <<< 24) % m') m') hlow (by omega) (by omega)
  refine ⟨m₂, e₂, hfits, hpos₂, ?_⟩
  rw [hdiv, hround, unpack_pack hfits hpos₂]

theorem div_self (hx : Normal x m e) : x / x = Float32.ofBits 0x3F800000 := by
  have hdiv := hx.toModel_div hx (by omega)
  have hexact : accuracyOfFraction 0 m = .exact := rfl
  rw [Nat.shiftLeft_eq, Nat.mul_div_cancel_left _ hx.2.1, Nat.mul_mod_right, Int.sub_self,
    hexact] at hdiv
  refine (congrArg Float32.ofModel hdiv).trans ?_
  decide +kernel

theorem sub_self (hx : Normal x m e) : x - x = Float32.ofBits 0 := by
  obtain ⟨-, hpos, hunpack⟩ := hx
  have hsub : UnpackedFloat.sub binary32 (.finite .positive m e hpos) (.finite .positive m e hpos)
      = .zero .positive := by
    rw [UnpackedFloat.sub]
    simp [Sign.apply, UnpackedFloat.normalize]
  have hmodel : (x - x).toModel = Float32.Model.pack (.zero .positive) := by
    change Float32.Model.pack (UnpackedFloat.sub binary32 x.toModel.unpack x.toModel.unpack) = _
    rw [hunpack, hsub]
  refine (congrArg Float32.ofModel hmodel).trans ?_
  decide +kernel

end Normal

end Single

/-! ## Sizes -/

theorem plausibleRatio_self {n : UInt32} (hn : n ≠ 0) :
    plausibleRatio (n.toFloat32 / n.toFloat32) = true := by
  obtain ⟨m, e, hx, -, -⟩ := Single.normal_toFloat32 hn
  rw [hx.div_self]
  decide +kernel

/-- **A size matches itself.** -/
theorem DepthCandidate.matchesAspect_self {c : DepthCandidate} (hwidth : c.width ≠ 0)
    (hheight : c.height ≠ 0) : c.matchesAspect c.width c.height = true := by
  obtain ⟨_, _, hw, hlower, hupper⟩ := Single.normal_toFloat32 hwidth
  obtain ⟨_, _, hh, hlower', hupper'⟩ := Single.normal_toFloat32 hheight
  obtain ⟨_, _, haspect⟩ := hw.div hh (by omega) (by omega)
  rw [matchesAspect, if_neg (by simp [hwidth, hheight])]
  dsimp only
  rw [haspect.sub_self, plausibleRatio_self hwidth, plausibleRatio_self hheight]
  decide +kernel

end EffectChain
