import EffectChain.Binary
import EffectChain.Decimal

/-!
# Report text

Reports are lists of lines, with columns padded by code points and durations in milliseconds or
microseconds.
-/

namespace EffectChain.CommandLine

/-- Lines as one text, each with a line break. -/
def joinLines (lines : List String) : String := String.join (lines.map (· ++ "\n"))

/-- A text filled up with blanks to a column of the given width. -/
def padTo (width : Nat) (text : String) : String :=
  text ++ String.ofList (List.replicate (width - text.length) ' ')

def wordText (n : UInt32) : String := toString n.toNat

/-- `n / divisor` in double precision, with a fixed number of places. -/
def quotientText (n divisor places : Nat) : String :=
  let double := BinaryFormat.double
  let exact (bits : Nat) : Nat × Nat :=
    let (m, e) := double.decode bits
    BinaryFormat.scaleRatio m 1 e
  let (num, den) := exact (double.roundRatio n 1)
  let (num, den) := exact (double.roundRatio num (den * divisor))
  Decimal.fixed places num den

/-- A duration in nanoseconds: with three places in milliseconds from one millisecond on, else with
one place in microseconds. -/
def durationText (nanoseconds : UInt64) : String :=
  if 1000000 ≤ nanoseconds then quotientText nanoseconds.toNat 1000000 3 ++ " ms"
  else quotientText nanoseconds.toNat 1000 1 ++ " us"

end EffectChain.CommandLine
