import EffectChain.Bytes
import EffectChain.Device.Descriptor

/-!
# Mip chains

Each level of a mip chain has half the size of the one above it, rounded down, and at least one
texel a side. A level of 8-bit channels is the box filter of the level above: every channel is the
mean, rounded half up, of that channel over those of four texels that exist.
-/

namespace EffectChain

namespace Mip

def side (size : UInt32) (level : Nat) : Nat := max (size.toNat >>> level) 1

def byteSize (d : TextureDesc) (level : Nat) : Nat :=
  side d.width level * side d.height level * d.format.bytesPerTexel

/-- The mean of bytes, rounded half up; zero if there are none. -/
def mean (bytes : List UInt8) : UInt8 :=
  let count := bytes.length
  let total := bytes.foldr (fun b total ↦ b.toNat + total) 0
  UInt8.ofNat ((total + count / 2) / max count 1)

/-- The bytes at one channel of the texels `(2x..2x+1, 2y..2y+1)` that a level of the given size
has. -/
def covered (source : Bytes) (width height texelSize x y channel : Nat) : List UInt8 :=
  [(2 * x, 2 * y), (2 * x + 1, 2 * y), (2 * x, 2 * y + 1), (2 * x + 1, 2 * y + 1)].filterMap
    fun (sx, sy) ↦
      if sx < width ∧ sy < height then
        some (source.byteAt ((sy * width + sx) * texelSize + channel))
      else none

/-- The box filter of a level of the given size, as a level of the second size. -/
def downsample (source : Bytes) (width height targetWidth targetHeight texelSize : Nat) : Bytes :=
  Bytes.tabulate (targetWidth * targetHeight * texelSize) fun i ↦
    let texel := i / texelSize
    mean (covered source width height texelSize (texel % targetWidth) (texel / targetWidth)
      (i % texelSize))

/-- Level `level + 1` of a texture, from level `level`. -/
def next (d : TextureDesc) (level : Nat) (source : Bytes) : Bytes :=
  downsample source (side d.width level) (side d.height level) (side d.width (level + 1))
    (side d.height (level + 1)) d.format.bytesPerTexel

/-- The given level and `count` further ones, each the box filter of the one before. -/
def chain (d : TextureDesc) : Nat → Bytes → Nat → List Bytes
  | _, source, 0 => [source]
  | level, source, count + 1 => source :: chain d (level + 1) (next d level source) count

theorem length_chain (d : TextureDesc) (level : Nat) (source : Bytes) (count : Nat) :
    (chain d level source count).length = count + 1 := by
  induction count generalizing level source with
  | zero => rfl
  | succ count ih => simp [chain, ih]

end Mip

end EffectChain
