import EffectChain.Device.Descriptor
import EffectChain.Device.Handle

/-!
# Tracking the application's depth buffers

The host tells a tracker which depth buffers the application binds, draws with and clears in a
frame. A depth buffer becomes a candidate when it is first bound, with the description it then has;
draws count for the frame, and for the bound candidate since its last clear and in all. Candidates
are kept in the order of their numbers, whatever the order of use.
-/

namespace EffectChain

/-- Counts of vertices and draw calls, which stop at the largest word. -/
structure DrawStats where
  /-- Vertices drawn. -/
  vertices : UInt32 := 0
  /-- Draw calls. -/
  drawCalls : UInt32 := 0
  deriving DecidableEq

def DrawStats.record (s : DrawStats) (vertices : UInt32) : DrawStats :=
  ⟨satAdd s.vertices vertices, satAdd s.drawCalls 1⟩

/-- A clear of a depth buffer. -/
structure ClearRecord where
  /-- Draws since the clear before. -/
  stats : DrawStats
  /-- A copy of the depth buffer from right before the clear. -/
  snapshot : Option (Handle .texture)
  deriving DecidableEq

/-- A depth buffer that was used in the frame. -/
structure DepthCandidate where
  /-- Width in texels. -/
  width : UInt32
  /-- Height in texels. -/
  height : UInt32
  /-- Samples of a texel. -/
  sampleCount : UInt32
  /-- Texel format. -/
  format : Format
  /-- Draws in the frame. -/
  total : DrawStats := {}
  /-- Draws since the last clear. -/
  current : DrawStats := {}
  /-- Clears, in order. -/
  clears : List ClearRecord := []
  deriving DecidableEq

namespace DepthCandidate

/-- A candidate that was just bound for the first time. -/
def ofDesc (d : TextureDesc) : DepthCandidate :=
  { width := d.width, height := d.height, sampleCount := d.sampleCount, format := d.format }

def isMultisampled (c : DepthCandidate) : Bool := 1 < c.sampleCount

def draw (c : DepthCandidate) (vertices : UInt32) : DepthCandidate :=
  { c with total := c.total.record vertices, current := c.current.record vertices }

def clear (c : DepthCandidate) (snapshot : Option (Handle .texture)) : DepthCandidate :=
  { c with current := {}, clears := c.clears ++ [⟨c.current, snapshot⟩] }

end DepthCandidate

/-- The depth buffers that the application used in a frame. -/
structure DepthTracker where
  /-- The candidates, in the order of their numbers. -/
  candidates : List (Handle .texture × DepthCandidate) := []
  /-- The depth buffer that is bound. -/
  bound : Option (Handle .texture) := none
  /-- Draws in the frame. -/
  total : DrawStats := {}

namespace DepthTracker

def candidate? (t : DepthTracker) (h : Handle .texture) : Option DepthCandidate :=
  t.candidates.lookup h

/-- Adds a candidate at its place in the order; one that is there already stays as it is. -/
def insertCandidate (h : Handle .texture) (c : DepthCandidate) :
    List (Handle .texture × DepthCandidate) → List (Handle .texture × DepthCandidate)
  | [] => [(h, c)]
  | (k, b) :: rest =>
    if h.id < k.id then (h, c) :: (k, b) :: rest
    else if h = k then (k, b) :: rest
    else (k, b) :: insertCandidate h c rest

/-- Changes the candidate of a depth buffer, if there is one. -/
def updateCandidate (t : DepthTracker) (h : Handle .texture)
    (f : DepthCandidate → DepthCandidate) : DepthTracker :=
  { t with candidates := t.candidates.map fun (k, c) ↦ if k = h then (k, f c) else (k, c) }

/-- The application binds a depth buffer. -/
def bind (t : DepthTracker) (h : Handle .texture) (desc : TextureDesc) : DepthTracker :=
  { t with candidates := insertCandidate h (.ofDesc desc) t.candidates, bound := some h }

/-- The application binds no depth buffer. -/
def unbind (t : DepthTracker) : DepthTracker := { t with bound := none }

def draw (t : DepthTracker) (vertices : UInt32) : DepthTracker :=
  let t := { t with total := t.total.record vertices }
  match t.bound with
  | none => t
  | some h => t.updateCandidate h fun c ↦ c.draw vertices

/-- The application clears a depth buffer, of which a copy may have been taken. -/
def clear (t : DepthTracker) (h : Handle .texture) (snapshot : Option (Handle .texture)) :
    DepthTracker :=
  t.updateCandidate h fun c ↦ c.clear snapshot

def reset (_ : DepthTracker) : DepthTracker := {}

end DepthTracker

end EffectChain
