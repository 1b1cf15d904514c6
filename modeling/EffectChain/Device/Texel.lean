import EffectChain.Bytes
import EffectChain.Format
import EffectChain.Single

/-!
# Encoded texels

A clear writes one colour into every texel, encoded by the format of the view that is cleared:
normalised integers are clamped and rounded to the nearest, gamma-encoded channels pass through the
transfer curve first, floating point channels keep their bits or are rounded to half precision.
Formats without colour channels have no encoding.
-/

namespace EffectChain

/-- A colour of four single precision channels. -/
structure Color where
  /-- Red. -/
  red : Single
  /-- Green. -/
  green : Single
  /-- Blue. -/
  blue : Single
  /-- Alpha. -/
  alpha : Single
  deriving DecidableEq

namespace Color

def transparent : Color := ⟨.zero, .zero, .zero, .zero⟩

/-- The gamma-encoded value of a linear channel. -/
def gammaEncode (x : Single) : Single :=
  let v := x.value
  .ofValue (if v ≤ 0.0031308 then v * 12.92 else 1.055 * v.pow (1.0 / 2.4) - 0.055)

/-- A channel as an 8-bit normalised integer. -/
def unorm8 (x : Single) : UInt8 := UInt8.ofNat (x.toUnorm 255)

/-- A channel as a 16-bit normalised integer, low byte first. -/
def unorm16 (x : Single) : List UInt8 := Bytes.ofWord16 (UInt16.ofNat (x.toUnorm 65535))

/-- A channel in half precision, low byte first. -/
def float16 (x : Single) : List UInt8 := Bytes.ofWord16 x.toHalf

/-- A channel in single precision, low byte first. -/
def float32 (x : Single) : List UInt8 := Bytes.ofWord32 x.bits

/-- Three 10-bit channels and a 2-bit one, red in the lowest bits. -/
def packed10 (c : Color) : List UInt8 :=
  let ten (x : Single) : UInt32 := UInt32.ofNat (x.toUnorm 1023)
  Bytes.ofWord32 (ten c.red ||| (ten c.green <<< 10) ||| (ten c.blue <<< 20)
    ||| (UInt32.ofNat (c.alpha.toUnorm 3) <<< 30))

/-- The colour as one texel of a format, empty for a format without colour channels. -/
def encode (c : Color) : Format → List UInt8
  | .r8Unorm => [unorm8 c.red]
  | .rg8Unorm => [unorm8 c.red, unorm8 c.green]
  | .rgba8Typeless | .rgba8Unorm => [unorm8 c.red, unorm8 c.green, unorm8 c.blue, unorm8 c.alpha]
  | .bgra8Typeless | .bgra8Unorm => [unorm8 c.blue, unorm8 c.green, unorm8 c.red, unorm8 c.alpha]
  | .rgba8UnormSrgb =>
    [unorm8 (gammaEncode c.red), unorm8 (gammaEncode c.green), unorm8 (gammaEncode c.blue),
      unorm8 c.alpha]
  | .bgra8UnormSrgb =>
    [unorm8 (gammaEncode c.blue), unorm8 (gammaEncode c.green), unorm8 (gammaEncode c.red),
      unorm8 c.alpha]
  | .r16Unorm => unorm16 c.red
  | .rg16Unorm => unorm16 c.red ++ unorm16 c.green
  | .rgba16Unorm => unorm16 c.red ++ unorm16 c.green ++ unorm16 c.blue ++ unorm16 c.alpha
  | .r16Float => float16 c.red
  | .rg16Float => float16 c.red ++ float16 c.green
  | .rgba16Float => float16 c.red ++ float16 c.green ++ float16 c.blue ++ float16 c.alpha
  | .r32Float => float32 c.red
  | .rg32Float => float32 c.red ++ float32 c.green
  | .rgba32Float => float32 c.red ++ float32 c.green ++ float32 c.blue ++ float32 c.alpha
  | .rgb10a2Unorm => packed10 c
  | _ => []

/-- A texel has the size of its format, unless the format has no colour channels. -/
theorem length_encode (c : Color) (f : Format) :
    (c.encode f).length = f.bytesPerTexel ∨ c.encode f = [] := by
  cases f <;> simp [encode, Format.bytesPerTexel, unorm16, float16, float32, packed10,
    Bytes.ofWord16, Bytes.ofWord32]

end Color

end EffectChain
