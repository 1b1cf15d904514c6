import EffectChain.Single

/-!
# Shortest decimal text

A single precision value is written with the fewest digits that read back to it, always in
positional notation. `Decimal.shortest` works in exact arithmetic: of the grids of multiples of a
power of ten, the coarsest that meets the interval of reals rounding to the value wins, and on it
the nearer of the value's two neighbours, the upper one on a tie.
-/

namespace EffectChain

namespace Decimal

/-- A positive decimal `digits * 10 ^ exponent`. -/
structure Magnitude where
  /-- The digits, read as one number. -/
  digits : Nat
  /-- The power of ten of the last digit. -/
  exponent : Int

/-- An interval of positive reals `[low, high] / den` around `value / den`. -/
structure Interval where
  /-- Numerator of the lower end. -/
  low : Nat
  /-- Numerator of the value. -/
  value : Nat
  /-- Numerator of the upper end. -/
  high : Nat
  /-- The common denominator. -/
  den : Nat
  /-- Whether the ends belong to the interval. -/
  closed : Bool

/-- The reals that round to the finite positive magnitude bits of a format. -/
def Interval.ofBits (f : BinaryFormat) (bits : Nat) : Interval :=
  let (m, e) := f.decode bits
  let below := if bits % f.hiddenBit = 0 ∧ f.hiddenBit < bits then 1 else 2
  let scale (n : Nat) : Nat := (BinaryFormat.scaleRatio n 1 (e - 2)).1
  ⟨scale (4 * m - below), scale (4 * m), scale (4 * m + 2),
    (BinaryFormat.scaleRatio 1 1 (e - 2)).2, m % 2 = 0⟩

/-- Whether `n / den'` lies in the interval whose numerators are over the same denominator. -/
def Interval.holds (i : Interval) (n : Nat) : Bool :=
  if i.closed then i.low ≤ n && n ≤ i.high else i.low < n && n < i.high

/-- The nearest multiple of `10 ^ exponent` in the interval, among the value's two neighbours. -/
def Interval.onGrid? (i : Interval) (exponent : Int) : Option Magnitude :=
  let up := if 0 ≤ exponent then 1 else powerOfTen (-exponent).toNat
  let unit := i.den * (if 0 ≤ exponent then powerOfTen exponent.toNat else 1)
  let scaled : Interval := ⟨i.low * up, i.value * up, i.high * up, unit, i.closed⟩
  let below := scaled.value / unit
  let above := below + 1
  let hitsBelow := 0 < below && scaled.holds (below * unit)
  let hitsAbove := scaled.holds (above * unit)
  if hitsBelow && (!hitsAbove || 2 * (scaled.value % unit) < unit) then some ⟨below, exponent⟩
  else if hitsAbove then some ⟨above, exponent⟩
  else none

/-- The shortest decimal in the interval: the first hit on the grids from `10 ^ 40` down. -/
def Interval.shortest (i : Interval) : Magnitude :=
  ((List.range 100).findSome? fun (k : Nat) ↦ i.onGrid? (40 - (k : Int))).getD ⟨0, 0⟩

/-- The decimal digits of a number, without leading zeros. -/
def digitsOf (n : Nat) : List Char := Nat.toDigits 10 n

/-- Positional notation: zeros fill up to the point on either side, and a whole number has none. -/
def Magnitude.positional (d : Magnitude) : String :=
  let digits := digitsOf d.digits
  if 0 ≤ d.exponent then String.ofList (digits ++ List.replicate d.exponent.toNat '0')
  else
    let places := (-d.exponent).toNat
    let padded := List.replicate (places + 1 - digits.length) '0' ++ digits
    let whole := padded.take (padded.length - places)
    String.ofList (whole ++ '.' :: padded.drop (padded.length - places))

/-- A ratio of naturals with a fixed number of places, a half going to the even last digit. -/
def fixed (places num den : Nat) : String :=
  let digits := digitsOf (BinaryFormat.roundHalfEven (num * powerOfTen places) den)
  let padded := List.replicate (places + 1 - digits.length) '0' ++ digits
  let whole := padded.take (padded.length - places)
  String.ofList (whole ++ '.' :: padded.drop (padded.length - places))

end Decimal

namespace Single

/-- The text of a value: the fewest digits that read back, in positional notation. -/
def text (x : Single) : String :=
  if x.isNaN then "NaN"
  else
    let sign := if x.isNegative then "-" else ""
    if x.isInfinite then sign ++ "inf"
    else if x.magnitude = 0 then sign ++ "0"
    else sign ++ (Decimal.Interval.ofBits .single x.magnitude).shortest.positional

end Single

end EffectChain
