/-!
# Counters that stop at their maximum

Draw statistics and slot counts are 32-bit words that never wrap: a sum too large for the word is
the largest word. `toNat_satAdd` turns every question about them into one about `min` in `Nat`.
-/

namespace EffectChain

def maxWord : UInt32 := 0xFFFFFFFF

theorem toNat_maxWord : maxWord.toNat = UInt32.size - 1 := rfl

/-- The sum of two words, or the largest word if the sum does not fit. -/
def satAdd (a b : UInt32) : UInt32 :=
  if a.toNat + b.toNat < UInt32.size then a + b else maxWord

theorem toNat_satAdd (a b : UInt32) :
    (satAdd a b).toNat = min (a.toNat + b.toNat) (UInt32.size - 1) := by
  unfold satAdd
  have size : UInt32.size = 4294967296 := rfl
  by_cases h : a.toNat + b.toNat < UInt32.size
  · rw [if_pos h, UInt32.toNat_add]
    omega
  · rw [if_neg h, toNat_maxWord]
    omega

end EffectChain
