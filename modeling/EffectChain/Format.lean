import EffectChain.Enumeration

/-!
# Texel formats

An effect declares a texture in one of twelve `TextureFormat`s; the device allocates it in a
`Format`. Where a format exists in a linear and a gamma-encoded reading, or as depth and as colour,
the resource is allocated typeless and its views choose: `Format.typeless`, `Format.linear` and
`Format.gamma` move between the variants of one memory layout, so none changes the texel size
(`bytesPerTexel_typeless` and its neighbours).
-/

namespace EffectChain

/-! ## Device formats -/

/-- A device format: channels, bits and numeric type. -/
inductive Format
  | unknown
  | r8Unorm
  | r16Unorm
  | r16Float
  | r32Float
  | rg8Unorm
  | rg16Unorm
  | rg16Float
  | rg32Float
  | rgba8Typeless
  | rgba8Unorm
  | rgba8UnormSrgb
  | bgra8Typeless
  | bgra8Unorm
  | bgra8UnormSrgb
  | rgba16Unorm
  | rgba16Float
  | rgba32Float
  | rgb10a2Unorm
  | r16Typeless
  | d16Unorm
  | r24g8Typeless
  | d24UnormS8Uint
  | r24UnormX8Typeless
  | r32Typeless
  | d32Float
  deriving DecidableEq

namespace Format

instance : Enumeration Format where
  members :=
    [unknown, r8Unorm, r16Unorm, r16Float, r32Float, rg8Unorm, rg16Unorm, rg16Float, rg32Float,
      rgba8Typeless, rgba8Unorm, rgba8UnormSrgb, bgra8Typeless, bgra8Unorm, bgra8UnormSrgb,
      rgba16Unorm, rgba16Float, rgba32Float, rgb10a2Unorm, r16Typeless, d16Unorm, r24g8Typeless,
      d24UnormS8Uint, r24UnormX8Typeless, r32Typeless, d32Float]
  name
    | unknown => "Unknown"
    | r8Unorm => "R8Unorm"
    | r16Unorm => "R16Unorm"
    | r16Float => "R16Float"
    | r32Float => "R32Float"
    | rg8Unorm => "Rg8Unorm"
    | rg16Unorm => "Rg16Unorm"
    | rg16Float => "Rg16Float"
    | rg32Float => "Rg32Float"
    | rgba8Typeless => "Rgba8Typeless"
    | rgba8Unorm => "Rgba8Unorm"
    | rgba8UnormSrgb => "Rgba8UnormSrgb"
    | bgra8Typeless => "Bgra8Typeless"
    | bgra8Unorm => "Bgra8Unorm"
    | bgra8UnormSrgb => "Bgra8UnormSrgb"
    | rgba16Unorm => "Rgba16Unorm"
    | rgba16Float => "Rgba16Float"
    | rgba32Float => "Rgba32Float"
    | rgb10a2Unorm => "Rgb10a2Unorm"
    | r16Typeless => "R16Typeless"
    | d16Unorm => "D16Unorm"
    | r24g8Typeless => "R24G8Typeless"
    | d24UnormS8Uint => "D24UnormS8Uint"
    | r24UnormX8Typeless => "R24UnormX8Typeless"
    | r32Typeless => "R32Typeless"
    | d32Float => "D32Float"

def name (f : Format) : String := Enumeration.name f

/-- Bytes of one texel; zero for the unknown format alone. -/
def bytesPerTexel : Format → Nat
  | unknown => 0
  | r8Unorm => 1
  | r16Unorm | r16Float | rg8Unorm | r16Typeless | d16Unorm => 2
  | r32Float | rg16Unorm | rg16Float | rgba8Typeless | rgba8Unorm | rgba8UnormSrgb
  | bgra8Typeless | bgra8Unorm | bgra8UnormSrgb | rgb10a2Unorm | r24g8Typeless | d24UnormS8Uint
  | r24UnormX8Typeless | r32Typeless | d32Float => 4
  | rg32Float | rgba16Unorm | rgba16Float => 8
  | rgba32Float => 16

/-- Whether every byte of a texel is one unsigned normalised channel. -/
def is8BitUnorm : Format → Bool
  | r8Unorm | rg8Unorm | rgba8Typeless | rgba8Unorm | rgba8UnormSrgb | bgra8Typeless | bgra8Unorm
  | bgra8UnormSrgb => true
  | _ => false

/-- Whether this is a depth format, or a typeless format that depth buffers are allocated in. -/
def isDepth : Format → Bool
  | r16Typeless | d16Unorm | r24g8Typeless | d24UnormS8Uint | r24UnormX8Typeless | r32Typeless
  | d32Float => true
  | _ => false

/-- The typeless variant of the layout, the format itself if there is none. -/
def typeless : Format → Format
  | rgba8Unorm | rgba8UnormSrgb => rgba8Typeless
  | bgra8Unorm | bgra8UnormSrgb => bgra8Typeless
  | d16Unorm | r16Unorm => r16Typeless
  | d24UnormS8Uint | r24UnormX8Typeless => r24g8Typeless
  | d32Float | r32Float => r32Typeless
  | f => f

/-- The linear variant for shader reads and render targets; depth reads as colour. -/
def linear : Format → Format
  | rgba8Typeless | rgba8UnormSrgb => rgba8Unorm
  | bgra8Typeless | bgra8UnormSrgb => bgra8Unorm
  | r16Typeless | d16Unorm => r16Unorm
  | r24g8Typeless | d24UnormS8Uint => r24UnormX8Typeless
  | r32Typeless | d32Float => r32Float
  | f => f

/-- The gamma-encoded variant, the format itself if there is none. -/
def gamma : Format → Format
  | rgba8Typeless | rgba8Unorm => rgba8UnormSrgb
  | bgra8Typeless | bgra8Unorm => bgra8UnormSrgb
  | f => f

/-- Bits of one colour channel of a swapchain in this format. -/
def colorBitDepth : Format → Nat
  | rgb10a2Unorm => 10
  | _ => 8

theorem bytesPerTexel_typeless (f : Format) : f.typeless.bytesPerTexel = f.bytesPerTexel := by
  cases f <;> rfl

theorem bytesPerTexel_linear (f : Format) : f.linear.bytesPerTexel = f.bytesPerTexel := by
  cases f <;> rfl

theorem bytesPerTexel_gamma (f : Format) : f.gamma.bytesPerTexel = f.bytesPerTexel := by
  cases f <;> rfl

end Format

/-! ## Declared formats -/

/-- A texture format as an effect declares it. -/
inductive TextureFormat
  | r8
  | r16f
  | r32f
  | rg8
  | rg16
  | rg16f
  | rg32f
  | rgba8
  | rgba16
  | rgba16f
  | rgba32f
  | rgb10a2
  deriving DecidableEq

namespace TextureFormat

instance : Enumeration TextureFormat where
  members := [r8, r16f, r32f, rg8, rg16, rg16f, rg32f, rgba8, rgba16, rgba16f, rgba32f, rgb10a2]
  name
    | r8 => "r8"
    | r16f => "r16f"
    | r32f => "r32f"
    | rg8 => "rg8"
    | rg16 => "rg16"
    | rg16f => "rg16f"
    | rg32f => "rg32f"
    | rgba8 => "rgba8"
    | rgba16 => "rgba16"
    | rgba16f => "rgba16f"
    | rgba32f => "rgba32f"
    | rgb10a2 => "rgb10a2"

/-- The device format a texture of this format is allocated in. -/
def deviceFormat : TextureFormat → Format
  | r8 => .r8Unorm
  | r16f => .r16Float
  | r32f => .r32Float
  | rg8 => .rg8Unorm
  | rg16 => .rg16Unorm
  | rg16f => .rg16Float
  | rg32f => .rg32Float
  | rgba8 => .rgba8Typeless
  | rgba16 => .rgba16Unorm
  | rgba16f => .rgba16Float
  | rgba32f => .rgba32Float
  | rgb10a2 => .rgb10a2Unorm

/-- How many channels of a four-channel upload the format keeps; only 8-bit formats take one. -/
def uploadChannels? : TextureFormat → Option Nat
  | r8 => some 1
  | rg8 => some 2
  | rgba8 => some 4
  | _ => none

theorem uploadChannels?_eq_bytesPerTexel {f : TextureFormat} {n : Nat}
    (h : f.uploadChannels? = some n) : n = f.deviceFormat.bytesPerTexel := by
  cases f <;> simp_all [uploadChannels?, deviceFormat, Format.bytesPerTexel]

end TextureFormat

end EffectChain
