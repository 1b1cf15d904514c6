/-!
# Moving averages

A technique's duration is smoothed over the last samples. An average keeps the samples of its
window, last first, and reports the whole part of their mean, zero while there are none. Since a
mean lies between its smallest and its largest sample, it fits the word the samples have.
-/

namespace EffectChain

/-- An average over the last `window` samples. -/
structure MovingAverage (window : Nat) where
  /-- The samples in the window, last first. -/
  recent : List UInt64 := []
  deriving DecidableEq

namespace MovingAverage

variable {window : Nat}

/-- Adds a sample; the oldest one leaves a full window. -/
def append (a : MovingAverage window) (sample : UInt64) : MovingAverage window :=
  ⟨(sample :: a.recent).take window⟩

/-- The sum of the samples in the window. -/
def total (a : MovingAverage window) : Nat :=
  a.recent.foldr (fun sample total ↦ sample.toNat + total) 0

def length (a : MovingAverage window) : Nat := a.recent.length

/-- The whole part of the mean of the samples in the window. -/
def get (a : MovingAverage window) : UInt64 := UInt64.ofNat (a.total / a.length)

def isEmpty (a : MovingAverage window) : Bool := a.recent.isEmpty

theorem length_append (a : MovingAverage window) (sample : UInt64) :
    (a.append sample).length = min window (a.length + 1) := by
  simp [append, length]

end MovingAverage

/-- How many samples the duration of a technique is averaged over. -/
def durationWindow : Nat := 60

/-- The average duration of a technique in nanoseconds. -/
abbrev DurationAverage : Type := MovingAverage durationWindow

end EffectChain
