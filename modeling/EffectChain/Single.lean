import EffectChain.Binary

/-!
# Single precision values

Sampler fields and clear colours are single precision values kept as their bits. Equality is then
equality of bits, which is what deduplication and the device descriptors ask for: a value that is
not a number equals itself, and the two zeros differ. Arithmetic and order are those of `Float32`.
-/

namespace EffectChain

/-- A single precision value, kept as its 32 bits. -/
structure Single where
  /-- Sign, exponent and fraction, from the top bit down. -/
  bits : UInt32
  deriving DecidableEq

namespace Single

def zero : Single := ⟨0⟩

def maxFinite : Single := ⟨0x7F7FFFFF⟩

def value (x : Single) : Float32 := Float32.ofBits x.bits

def ofValue (v : Float32) : Single := ⟨v.toBits⟩

def isNegative (x : Single) : Bool := x.bits &&& 0x80000000 != 0

def magnitude (x : Single) : Nat := (x.bits &&& 0x7FFFFFFF).toNat

/-- Whether the bits stand for no number. -/
def isNaN (x : Single) : Bool := BinaryFormat.single.infinity < x.magnitude

/-- Whether the bits stand for an infinity. -/
def isInfinite (x : Single) : Bool := x.magnitude = BinaryFormat.single.infinity

/-- A value from its sign and magnitude bits. -/
def ofMagnitude (negative : Bool) (magnitude : Nat) : Single :=
  ⟨(if negative then 0x80000000 else 0) ||| UInt32.ofNat magnitude⟩

/-- Strictly smaller; false if either side is not a number. -/
def lt (x y : Single) : Bool := x.value < y.value

/-- The double precision magnitude bits rounded to single precision. -/
def ofDouble (negative : Bool) (double : Nat) : Single :=
  if double = BinaryFormat.double.infinity then ofMagnitude negative BinaryFormat.single.infinity
  else
    let (m, e) := BinaryFormat.double.decode double
    ofMagnitude negative (BinaryFormat.single.roundScaled m e)

/-- The decimal `± m * 10 ^ e` read as a double and then rounded to single precision. -/
def ofDecimal (negative : Bool) (m : Nat) (e : Int) : Single :=
  ofDouble negative (BinaryFormat.double.roundDecimal m e)

/-- The half precision bits nearest to a value. What is no number stays none, with the upper bits
of its payload. -/
def toHalf (x : Single) : UInt16 :=
  let sign : UInt16 := if x.isNegative then 0x8000 else 0
  let magnitude : Nat :=
    if x.isNaN then 0x7E00 ||| ((x.bits &&& 0x007FFFFF) >>> 13).toNat
    else if x.isInfinite then BinaryFormat.half.infinity
    else
      let (m, e) := BinaryFormat.single.decode x.magnitude
      BinaryFormat.half.roundScaled m e
  sign ||| UInt16.ofNat magnitude

/-- The value clamped to `[0, 1]`, scaled by `top` and rounded to a natural number, a half upwards;
zero for what is no number. -/
def toUnorm (x : Single) (top : UInt32) : Nat :=
  let v := x.value
  let clamped : Float32 := if v < 0 then 0 else if 1 < v then 1 else v
  let scaled := clamped * top.toFloat32
  -- `scaled` is below `2 ^ 24`, so its whole part and the difference are exact
  let whole := scaled.toUInt32
  let rest := scaled - whole.toFloat32
  if (⟨0x3F000000⟩ : Single).value ≤ rest then whole.toNat + 1 else whole.toNat

end Single

end EffectChain
