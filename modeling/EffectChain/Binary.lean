/-!
# Rounding to binary floating point

A binary interchange format is fixed by the width of its exponent field and of its fraction field.
A finite magnitude is a natural number times a power of two (`BinaryFormat.decode`), and the
nearest representable magnitude to a positive ratio of two naturals is found in exact arithmetic
(`BinaryFormat.roundRatio`): a half goes to the even neighbour and what is too large to
infinity. Double, single and half precision are three values of one record, so that a decimal
read into single precision is rounded to double first and then again, and a clear colour is
rounded from single to half, by the same function.
-/

namespace EffectChain

def powerOfTen (k : Nat) : Nat := Nat.pow 10 k

/-- The widths of the fields of a binary floating point format. -/
structure BinaryFormat where
  /-- Width of the exponent field. -/
  exponentBits : Nat
  /-- Width of the fraction field. -/
  fractionBits : Nat

namespace BinaryFormat

def half : BinaryFormat := ⟨5, 10⟩

def single : BinaryFormat := ⟨8, 23⟩

def double : BinaryFormat := ⟨11, 52⟩

/-- The bit above the fraction, which every magnitude but the smallest ones has without showing
it. -/
def hiddenBit (f : BinaryFormat) : Nat := 1 <<< f.fractionBits

/-- The magnitude bits of infinity. Larger ones are not numbers. -/
def infinity (f : BinaryFormat) : Nat := ((1 <<< f.exponentBits) - 1) * f.hiddenBit

/-- The exponent of the smallest positive magnitude, a power of two. -/
def minExponent (f : BinaryFormat) : Int :=
  2 - (1 <<< (f.exponentBits - 1) : Nat) - f.fractionBits

/-- The magnitude that finite bits stand for, as `(m, e)` for `m * 2 ^ e`. -/
def decode (f : BinaryFormat) (bits : Nat) : Nat × Int :=
  let fraction := bits % f.hiddenBit
  let exponent := bits / f.hiddenBit
  if exponent = 0 then (fraction, f.minExponent)
  else (fraction + f.hiddenBit, f.minExponent + (exponent - 1))

/-- The quotient rounded to a natural number, a half to the even one. -/
def roundHalfEven (num den : Nat) : Nat :=
  let q := num / den
  let r := num % den
  if 2 * r < den then q
  else if den < 2 * r then q + 1
  else if q % 2 = 0 then q else q + 1

/-- `num / den * 2 ^ e` as a ratio of naturals. -/
def scaleRatio (num den : Nat) (e : Int) : Nat × Nat :=
  if 0 ≤ e then (num <<< e.toNat, den) else (num, den <<< (-e).toNat)

/-- The magnitude bits nearest to `num / den`. -/
def roundRatio (f : BinaryFormat) (num den : Nat) : Nat :=
  if num = 0 then 0
  else
    let guess : Int := (num.log2 : Int) - den.log2
    let (n, d) := scaleRatio num den (-guess)
    let floorLog := if d ≤ n then guess else guess - 1
    let exponent := max (floorLog - f.fractionBits) f.minExponent
    let (n, d) := scaleRatio num den (-exponent)
    -- a carry out of the fraction lands in the exponent field, which is the next magnitude
    let bits := (exponent - f.minExponent).toNat * f.hiddenBit + roundHalfEven n d
    min bits f.infinity

/-- The magnitude bits nearest to `m * 2 ^ e`. -/
def roundScaled (f : BinaryFormat) (m : Nat) (e : Int) : Nat :=
  let (num, den) := scaleRatio m 1 e
  f.roundRatio num den

/-- The magnitude bits nearest to `m * 10 ^ e`. An exponent far beyond every format is answered
without computing the power. -/
def roundDecimal (f : BinaryFormat) (m : Nat) (e : Int) : Nat :=
  if m = 0 then 0
  else if 400 < e then f.infinity
  else if e + (m.log2 : Int) < -1500 then 0
  else if 0 ≤ e then f.roundRatio (m * powerOfTen e.toNat) 1
  else f.roundRatio m (powerOfTen (-e).toNat)

end BinaryFormat

end EffectChain
