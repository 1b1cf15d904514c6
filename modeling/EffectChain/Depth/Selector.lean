import EffectChain.Config
import EffectChain.Depth.Tracker

/-!
# Selecting the scene depth buffer

A selector picks the most plausible scene depth buffer of a frame: a manual choice wins whatever was
tracked; else, of the single-sampled candidates that were drawn with and, if asked for, match the
backbuffer in size, the one with the most vertices, then the most draw calls, then the lowest
number. If clears are preserved, the snapshot taken at the wanted clear stands for it.
-/

namespace EffectChain

/-! ## Plausible sizes -/

/-- The largest difference between the aspect ratios of a candidate and the backbuffer: one
tenth. -/
def aspectTolerance : Single := ⟨0x3DCCCCCD⟩

/-- The smallest ratio of a backbuffer side to a candidate side: one half. -/
def minSideRatio : Single := ⟨0x3F000000⟩

/-- The largest ratio of a backbuffer side to a candidate side: 1.85. -/
def maxSideRatio : Single := ⟨0x3FECCCCD⟩

/-- Whether a ratio of sides lies in the accepted range. -/
def plausibleRatio (ratio : Float32) : Bool :=
  minSideRatio.value ≤ ratio && ratio ≤ maxSideRatio.value

/-- Whether the candidate's size plausibly matches that of a backbuffer. -/
def DepthCandidate.matchesAspect (c : DepthCandidate) (width height : UInt32) : Bool :=
  if c.width = 0 ∨ c.height = 0 ∨ height = 0 then false
  else
    let w := c.width.toFloat32
    let h := c.height.toFloat32
    let aspect := w / h
    let target := width.toFloat32 / height.toFloat32
    (aspect - target).abs ≤ aspectTolerance.value
      && plausibleRatio (width.toFloat32 / w) && plausibleRatio (height.toFloat32 / h)

/-! ## Selection -/

/-- The outcome of a selection. -/
structure DepthSelection where
  /-- The depth buffer that was selected. -/
  depthBuffer : Handle .texture
  /-- What stands for it: itself or a snapshot of it. -/
  texture : Handle .texture
  /-- The clear at which the snapshot was taken, counted from one. -/
  clearNumber : Option UInt32
  deriving DecidableEq

/-- The settings of a selection. -/
structure DepthSelector where
  /-- Whether a candidate must match the backbuffer in size. -/
  matchAspect : Bool := false
  /-- The wanted clear, none for the depth buffer itself. -/
  clearNumber : Option UInt32 := none
  /-- A manual choice. -/
  manual : Option (Handle .texture) := none

namespace DepthSelector

/-- The settings of a configuration, without a manual choice. -/
def ofConfig (c : DepthConfig) : DepthSelector :=
  { matchAspect := c.matchAspect, clearNumber := c.effectiveClear? }

def eligible (s : DepthSelector) (width height : UInt32) (c : DepthCandidate) : Bool :=
  c.total.drawCalls ≠ 0 && !c.isMultisampled && (!s.matchAspect || c.matchesAspect width height)

/-- Whether statistics outrank others: by vertices first, then by draw calls. -/
def outranks (a b : DrawStats) : Bool :=
  b.vertices < a.vertices || (a.vertices = b.vertices && b.drawCalls < a.drawCalls)

/-- The best of candidates and one chosen so far; of equals, the one chosen first. -/
def best (chosen : Option (Handle .texture × DepthCandidate)) :
    List (Handle .texture × DepthCandidate) → Option (Handle .texture × DepthCandidate)
  | [] => chosen
  | (h, c) :: rest =>
    match chosen with
    | none => best (some (h, c)) rest
    | some (k, b) => best (some (if outranks c.total b.total then (h, c) else (k, b))) rest

/-- The best candidate that can be selected. -/
def bestCandidate (s : DepthSelector) (t : DepthTracker) (width height : UInt32) :
    Option (Handle .texture) :=
  (best none (t.candidates.filter fun (_, c) ↦ s.eligible width height c)).map (·.1)

/-- The number of the clear that a wanted one stands for, out of `count`: itself if there is such a
clear, else the last. -/
def clearInEffect (wanted : UInt32) (count : Nat) : Nat :=
  if wanted = 0 ∨ count < wanted.toNat then count else wanted.toNat

/-- The texture of the wanted clear of a depth buffer and the number of that clear, if clears are
preserved and there was one. Clears are numbered by words; of more than these there is none. -/
def preservedClear? (s : DepthSelector) (t : DepthTracker) (h : Handle .texture) :
    Option (Handle .texture × UInt32) := do
  let wanted ← s.clearNumber
  let candidate ← t.candidate? h
  let count := candidate.clears.length
  let number := clearInEffect wanted count
  let record ←
    if number = 0 ∨ UInt32.size ≤ count then none else candidate.clears[number - 1]?
  return (record.snapshot.getD h, UInt32.ofNat number)

/-- Selects the scene depth buffer for a backbuffer of the given size. -/
def select (s : DepthSelector) (t : DepthTracker) (width height : UInt32) :
    Option DepthSelection :=
  let chosen := match s.manual with
    | some h => some h
    | none => s.bestCandidate t width height
  chosen.map fun h ↦
    match s.preservedClear? t h with
    | some (texture, number) => ⟨h, texture, some number⟩
    | none => ⟨h, h, none⟩

end DepthSelector

end EffectChain
