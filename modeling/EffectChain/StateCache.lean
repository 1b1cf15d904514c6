import EffectChain.Device.Ownership

/-!
# State caches

Effects declare the same fixed-function state over and over, so a cache keeps one device object for
each descriptor. An entry is found by the content hash of its descriptor first and then by the
descriptor itself, so descriptors with one hash are never confused. Entries stay until the whole
cache is cleared.
-/

namespace EffectChain

/-- Descriptors from which the device makes a state object of a kind. -/
class StateDescriptor (δ : Type) (kind : outParam ObjectKind) where
  /-- A hash of the descriptor's fields. -/
  contentHash : δ → UInt32
  /-- Creates the state object. -/
  create : δ → DeviceM (Handle kind)

instance : StateDescriptor SamplerDesc .sampler where
  contentHash := SamplerDesc.contentHash
  create := Device.createSampler

instance : StateDescriptor BlendDesc .blendState where
  contentHash := BlendDesc.contentHash
  create := Device.createBlendState

instance : StateDescriptor DepthStencilDesc .depthStencilState where
  contentHash := DepthStencilDesc.contentHash
  create := Device.createDepthStencilState

/-- A cached state object. -/
structure CachedState (δ : Type) (kind : ObjectKind) where
  /-- The content hash of its descriptor. -/
  hash : UInt32
  /-- What it was made from. -/
  desc : δ
  /-- The device object. -/
  handle : Handle kind

/-- A cache of the state objects of one kind. -/
structure StateCache (δ : Type) (kind : ObjectKind) where
  /-- The cached state objects, last created first. -/
  entries : List (CachedState δ kind) := []
  /-- How many requests found their state object. -/
  hits : Nat := 0
  /-- How many requests created one. -/
  misses : Nat := 0

namespace StateCache

variable {δ : Type} {kind : ObjectKind}

def size (c : StateCache δ kind) : Nat := c.entries.length

def isEmpty (c : StateCache δ kind) : Bool := c.entries.isEmpty

def handles (c : StateCache δ kind) : List (Handle kind) := c.entries.map (·.handle)

def find? [DecidableEq δ] [StateDescriptor δ kind] (c : StateCache δ kind) (desc : δ) :
    Option (Handle kind) :=
  (c.entries.find? fun e ↦ e.hash = StateDescriptor.contentHash desc && e.desc = desc).map
    (·.handle)

/-- Adds the object that was created for a descriptor. -/
def insert [StateDescriptor δ kind] (c : StateCache δ kind) (desc : δ) (handle : Handle kind) :
    StateCache δ kind :=
  { c with
    entries := ⟨StateDescriptor.contentHash desc, desc, handle⟩ :: c.entries
    misses := c.misses + 1 }

/-- The object of a descriptor, created on first request. A refused creation leaves the cache as it
was. -/
def request [DecidableEq δ] [StateDescriptor δ kind] (c : StateCache δ kind) (desc : δ)
    (d : Device) : Except DeviceError (Handle kind) × StateCache δ kind × Device :=
  match c.find? desc with
  | some handle => (.ok handle, { c with hits := c.hits + 1 }, d)
  | none =>
    match (StateDescriptor.create desc).on d with
    | (.ok handle, d) => (.ok handle, c.insert desc handle, d)
    | (.error e, d) => (.error e, c, d)

/-- The references to the cached objects. -/
def refs (c : StateCache δ kind) : List ObjectRef := c.handles.map Handle.ref

/-- Releases the cached objects and starts over. -/
def clear (c : StateCache δ kind) (d : Device) : StateCache δ kind × Device :=
  ({}, d.release c.refs)

section Request

variable [DecidableEq δ] [StateDescriptor δ kind]

/-- What a request can do: it finds an object, or creates and enters one, or fails. -/
theorem request_cases (c : StateCache δ kind) (desc : δ) (d : Device) :
    (∃ h, c.find? desc = some h ∧ c.request desc d = (.ok h, { c with hits := c.hits + 1 }, d)) ∨
    (∃ h d', StateDescriptor.create desc d = (.ok h, d') ∧
      c.request desc d = (.ok h, c.insert desc h, d')) ∨
    (∃ e d', StateDescriptor.create desc d = (.error e, d') ∧
      c.request desc d = (.error e, c, d')) := by
  unfold request
  rcases hfind : c.find? desc with _ | h
  · rcases hrun : StateDescriptor.create desc d with ⟨e | h, d'⟩
    · exact Or.inr (Or.inr ⟨e, d', rfl, by rw [DeviceM.on, hrun]⟩)
    · exact Or.inr (Or.inl ⟨h, d', rfl, by rw [DeviceM.on, hrun]⟩)
  · exact Or.inl ⟨h, rfl, rfl⟩

theorem mem_entries_of_find? {c : StateCache δ kind} {desc : δ} {h : Handle kind}
    (hfind : c.find? desc = some h) : ∃ e ∈ c.entries, e.desc = desc ∧ e.handle = h := by
  obtain ⟨e, he, rfl⟩ := Option.map_eq_some_iff.mp hfind
  have hmatches := List.find?_some he
  simp only [Bool.and_eq_true, decide_eq_true_eq] at hmatches
  exact ⟨e, List.mem_of_find?_eq_some he, hmatches.2, rfl⟩

end Request

end StateCache

/-- The caches of all three kinds. -/
structure StateObjects where
  /-- Sampler states. -/
  samplers : StateCache SamplerDesc .sampler := {}
  /-- Blend states. -/
  blends : StateCache BlendDesc .blendState := {}
  /-- Depth-stencil states. -/
  depthStencils : StateCache DepthStencilDesc .depthStencilState := {}

namespace StateObjects

def size (s : StateObjects) : Nat := s.samplers.size + s.blends.size + s.depthStencils.size

/-- The references to the cached objects. -/
def refs (s : StateObjects) : List ObjectRef :=
  s.samplers.refs ++ s.blends.refs ++ s.depthStencils.refs

def isEmpty (s : StateObjects) : Bool := s.size = 0

end StateObjects

/-- Descriptors that have a cache among the three. -/
class CachedDescriptor (δ : Type) (kind : outParam ObjectKind) extends
    StateDescriptor δ kind where
  /-- The cache. -/
  cache : StateObjects → StateCache δ kind
  /-- The caches with this one replaced. -/
  withCache : StateObjects → StateCache δ kind → StateObjects

instance : CachedDescriptor SamplerDesc .sampler where
  cache s := s.samplers
  withCache s c := { s with samplers := c }

instance : CachedDescriptor BlendDesc .blendState where
  cache s := s.blends
  withCache s c := { s with blends := c }

instance : CachedDescriptor DepthStencilDesc .depthStencilState where
  cache s := s.depthStencils
  withCache s c := { s with depthStencils := c }

/-- The object of a descriptor, from the cache for descriptors of its type. -/
def StateObjects.request {δ : Type} {kind : ObjectKind} [DecidableEq δ] [CachedDescriptor δ kind]
    (s : StateObjects) (desc : δ) (d : Device) :
    Except DeviceError (Handle kind) × StateObjects × Device :=
  let (outcome, cache, d) := (CachedDescriptor.cache s).request desc d
  (outcome, CachedDescriptor.withCache s cache, d)

end EffectChain
