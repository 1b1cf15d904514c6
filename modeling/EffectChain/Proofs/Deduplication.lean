import EffectChain.Proofs.Caches
import EffectChain.Proofs.Hashing
import Mathlib.Data.Finset.Card

/-!
# Deduplication

A cache answers a request with the object it made for the same descriptor before, and makes a new
one only if there is none. It is followed here through any sequence of requests, clears and refusals
(`CacheSession.run`), together with what was served since the last clear and what was released.

Nothing is asked of the hash, which only ever narrows the search down: an entry is entered under the
hash of its descriptor, so whoever asks for that descriptor looks where it is
(`CacheSession.Sound.hashed`). What is asked of the device is that it stores the descriptor of a
state object (`FaithfulDescriptor`).
-/

namespace EffectChain

/-- State objects keep the descriptor they were made of. -/
class FaithfulDescriptor (δ : Type) {kind : ObjectKind} [StateDescriptor δ kind] where
  /-- The descriptor of a state object. -/
  describe : kind.Content → δ
  /-- State objects are created like all objects, and of the requested descriptor. -/
  create_eq : ∀ desc : δ, ∃ content,
    StateDescriptor.create desc = Device.create kind (fun _ ↦ content) ∧
      ∀ x, content = .ok x → describe x = desc

theorem FaithfulDescriptor.of_makes {δ : Type} {kind : ObjectKind} [CachedDescriptor δ kind]
    [LawfulCache δ kind] {describe : kind.Content → δ}
    (h : ∀ {desc : δ} {x : kind.Content}, StateDescriptor.Makes desc x → describe x = desc)
    (desc : δ) : ∃ content, StateDescriptor.create desc = Device.create kind (fun _ ↦ content) ∧
      ∀ x, content = .ok x → describe x = desc := by
  obtain ⟨content, hcreate⟩ := LawfulCache.create_eq desc
  refine ⟨content, hcreate, fun x hx ↦ h ?_⟩
  rw [StateDescriptor.Makes, hcreate, hx]

instance : FaithfulDescriptor SamplerDesc where
  describe := id
  create_eq := FaithfulDescriptor.of_makes SamplerDesc.eq_of_makes

instance : FaithfulDescriptor BlendDesc where
  describe := id
  create_eq := FaithfulDescriptor.of_makes BlendDesc.eq_of_makes

instance : FaithfulDescriptor DepthStencilDesc where
  describe := id
  create_eq := FaithfulDescriptor.of_makes DepthStencilDesc.eq_of_makes

/-- The same descriptors, hashed in another way. -/
abbrev StateDescriptor.withHash {δ : Type} {kind : ObjectKind} [StateDescriptor δ kind]
    (hash : δ → UInt32) : StateDescriptor δ kind where
  contentHash := hash
  create := StateDescriptor.create

/-- How descriptors are hashed does not matter to what is made of them. -/
abbrev FaithfulDescriptor.withHash {δ : Type} {kind : ObjectKind} [StateDescriptor δ kind]
    [faithful : FaithfulDescriptor δ] (hash : δ → UInt32) :
    @FaithfulDescriptor δ kind (StateDescriptor.withHash hash) :=
  @FaithfulDescriptor.mk δ kind (StateDescriptor.withHash hash) faithful.describe
    faithful.create_eq

/-- The descriptor of a state object that is alive. -/
def Device.descriptor? (δ : Type) {kind : ObjectKind} [StateDescriptor δ kind]
    [FaithfulDescriptor δ] (d : Device) (h : Handle kind) : Option δ :=
  (d.get? h).map FaithfulDescriptor.describe

/-! ## Sessions of a cache -/

/-- Something that happens to a cache or to its device. -/
inductive CacheEvent (δ : Type)
  /-- A state object is asked for. -/
  | request (desc : δ)
  /-- The cache is cleared. -/
  | clear
  /-- A creation is to be refused. -/
  | failAfter (kind : ObjectKind) (after : Nat)
  /-- Somebody else creates an object. -/
  | create (kind : ObjectKind) (content : Except DeviceError kind.Content)

/-- A cache, its device, and a record of what it did. -/
structure CacheSession (δ : Type) (kind : ObjectKind) where
  /-- The cache. -/
  cache : StateCache δ kind := {}
  /-- The device. -/
  device : Device
  /-- The requests that were answered with an object since the last clear, last first. -/
  served : List (δ × Handle kind) := []
  /-- The requests that were answered before the last clear. -/
  earlier : List (δ × Handle kind) := []
  /-- The releases of objects. -/
  released : List (Handle kind) := []

namespace CacheSession

variable {δ : Type} {kind : ObjectKind} [DecidableEq δ] [StateDescriptor δ kind]

def step (s : CacheSession δ kind) : CacheEvent δ → CacheSession δ kind
  | .request desc =>
    match s.cache.request desc s.device with
    | (.ok h, cache, device) => { s with cache, device, served := (desc, h) :: s.served }
    | (.error _, cache, device) => { s with cache, device }
  | .clear =>
    { cache := (s.cache.clear s.device).1
      device := (s.cache.clear s.device).2
      earlier := s.served ++ s.earlier
      released := s.cache.handles ++ s.released }
  | .failAfter kind after => { s with device := s.device.failAfter kind after }
  | .create kind content =>
    { s with device := (Device.create kind (fun _ ↦ content) s.device).2 }

def run (s : CacheSession δ kind) (events : List (CacheEvent δ)) : CacheSession δ kind :=
  events.foldl step s

/-- The session with other refusals to come. -/
def withRefusals (s : CacheSession δ kind) (refusals : List Refusal) : CacheSession δ kind :=
  { s with device := { s.device with refusals } }

end CacheSession

namespace StateCache

variable {δ : Type} {kind : ObjectKind} [DecidableEq δ] [StateDescriptor δ kind]
  {c : StateCache δ kind} {desc : δ}

/-- Entries stand under the hash of their descriptor. -/
def Hashed (c : StateCache δ kind) : Prop :=
  ∀ e ∈ c.entries, e.hash = StateDescriptor.contentHash e.desc

theorem desc_ne_of_find?_eq_none (hc : c.Hashed) (hfind : c.find? desc = none) :
    ∀ e ∈ c.entries, e.desc ≠ desc := by
  rintro e he rfl
  have hmissed := List.find?_eq_none.mp (Option.map_eq_none_iff.mp hfind) e he
  simp [hc e he] at hmissed

end StateCache

/-! ## What every event preserves -/

namespace CacheSession

variable {δ : Type} {kind : ObjectKind} [DecidableEq δ] [StateDescriptor δ kind]
  [FaithfulDescriptor δ] {s : CacheSession δ kind} {desc : δ} {h : Handle kind} {d : Device}

/-- The cache, the device and the record agree. -/
structure Sound (s : CacheSession δ kind) : Prop where
  /-- The device numbers what it makes. -/
  numbered : s.device.Numbered
  /-- Entries stand under the hash of their descriptor. -/
  hashed : s.cache.Hashed
  /-- No descriptor was entered twice. -/
  nodup : (s.cache.entries.map (·.desc)).Nodup
  /-- Entries are alive, and of their descriptor. -/
  described : ∀ e ∈ s.cache.entries, s.device.descriptor? δ e.handle = some e.desc
  /-- What was served is what is entered. -/
  served : ∀ p, p ∈ s.served ↔ ∃ e ∈ s.cache.entries, (e.desc, e.handle) = p
  /-- Every entry was created once. -/
  misses : s.cache.misses = s.cache.entries.length
  /-- Requests are counted either way. -/
  requests : s.cache.hits + s.cache.misses = s.served.length
  /-- Nothing is released twice. -/
  released : s.released.Nodup
  /-- What was released is what had been served. -/
  earlier : ∀ h, h ∈ s.released ↔ ∃ desc, (desc, h) ∈ s.earlier
  /-- What was released is gone for good. -/
  gone : ∀ h ∈ s.released, h.id ≤ s.device.lastId ∧ h.ref ∉ s.device.live

namespace Sound

omit [DecidableEq δ] in
theorem start (hd : d.Numbered) : Sound ({ device := d } : CacheSession δ kind) where
  numbered := hd
  hashed := List.forall_mem_nil _
  nodup := List.nodup_nil
  described := List.forall_mem_nil _
  served p := by simp
  misses := rfl
  requests := rfl
  released := List.nodup_nil
  earlier h := by simp
  gone := List.forall_mem_nil _

omit [DecidableEq δ] in
theorem mem_live (hs : s.Sound) {e : CachedState δ kind} (he : e ∈ s.cache.entries) :
    e.handle.ref ∈ s.device.live := by
  obtain ⟨x, hx, -⟩ := Option.map_eq_some_iff.mp (hs.described e he)
  exact Device.mem_live_of_get? hx

omit [DecidableEq δ] in
/-- Entries of different descriptors have different objects, since these tell their descriptor. -/
theorem handles_nodup (hs : s.Sound) : s.cache.handles.Nodup := by
  have hdescs : s.cache.handles.map (s.device.descriptor? δ)
      = (s.cache.entries.map (·.desc)).map some := by
    rw [StateCache.handles, List.map_map, List.map_map]
    exact List.map_congr_left hs.described
  refine List.Nodup.of_map (s.device.descriptor? δ) ?_
  rw [hdescs]
  exact hs.nodup.map (Option.some_injective δ)

omit [DecidableEq δ] in
theorem released_disjoint (hs : s.Sound) : s.released.Disjoint s.cache.handles := by
  intro h hh hcached
  obtain ⟨e, he, rfl⟩ := List.mem_map.mp hcached
  exact (hs.gone _ hh).2 (hs.mem_live he)

omit [DecidableEq δ] in
theorem mem_handles_iff (hs : s.Sound) :
    h ∈ s.cache.handles ↔ ∃ desc, (desc, h) ∈ s.served := by
  simp only [hs.served, StateCache.handles, List.mem_map, Prod.mk.injEq]
  constructor
  · rintro ⟨e, he, rfl⟩
    exact ⟨e.desc, e, he, rfl, rfl⟩
  · rintro ⟨-, e, he, -, rfl⟩
    exact ⟨e, he, rfl⟩

omit [DecidableEq δ] in
theorem elsewhere (hs : s.Sound) {d' : Device} (hevolves : s.device.Evolves d')
    (hget : ∀ h : Handle kind, h.id ≤ s.device.lastId → d'.get? h = s.device.get? h) :
    Sound { s with device := d' } := by
  refine { hs with
    numbered := hevolves.numbered hs.numbered
    described := fun e he ↦ ?_
    gone := fun h hh ↦ ?_ }
  · rw [Device.descriptor?, hget e.handle (hs.numbered e.handle.ref (hs.mem_live he))]
    exact hs.described e he
  · obtain ⟨hid, hdead⟩ := hs.gone h hh
    exact ⟨hid.trans hevolves.lastId_le, hevolves.not_mem_live hid hdead⟩

theorem hit (hs : s.Sound) (hfind : s.cache.find? desc = some h) :
    Sound { s with
      cache := { s.cache with hits := s.cache.hits + 1 }, served := (desc, h) :: s.served } := by
  obtain ⟨e, he, rfl, rfl⟩ := StateCache.mem_entries_of_find? hfind
  refine { hs with served := fun p ↦ ?_, requests := ?_ }
  · rw [List.mem_cons, hs.served]
    refine or_iff_right_of_imp fun hp ↦ ?_
    exact ⟨e, he, hp.symm⟩
  · have hrequests := hs.requests
    dsimp only at hrequests ⊢
    rw [List.length_cons]
    omega

theorem miss (hs : s.Sound) (hfind : s.cache.find? desc = none) {d' : Device}
    (run : StateDescriptor.create desc s.device = (.ok h, d')) :
    Sound { s with
      cache := s.cache.insert desc h, device := d', served := (desc, h) :: s.served } := by
  obtain ⟨content, hcreate, hdescribes⟩ := @FaithfulDescriptor.create_eq δ kind _ _ desc
  rw [hcreate] at run
  have hevolves := Device.Evolves.create.run run
  have hget (h' : Handle kind) (hid : h'.id ≤ s.device.lastId) :
      d'.get? h' = s.device.get? h' := by
    have hcreated := s.device.get?_create (fun _ ↦ content) hid
    rwa [run] at hcreated
  have hs' := hs.elsewhere hevolves hget
  obtain ⟨-, x, hx, hstored, -⟩ := Device.made_of_create run
  refine { hs' with hashed := ?_, nodup := ?_, described := ?_, served := fun p ↦ ?_, misses := ?_,
                    requests := ?_ }
  · exact List.forall_mem_cons.mpr ⟨rfl, hs.hashed⟩
  · refine List.nodup_cons.mpr ⟨fun hmem ↦ ?_, hs.nodup⟩
    obtain ⟨e, he, heq⟩ := List.mem_map.mp hmem
    exact StateCache.desc_ne_of_find?_eq_none hs.hashed hfind e he heq
  · refine List.forall_mem_cons.mpr ⟨?_, hs'.described⟩
    rw [Device.descriptor?, hstored, Option.map_some, hdescribes x hx]
  · rw [List.mem_cons, hs.served]
    simp [StateCache.insert, eq_comm]
  · exact congrArg (· + 1) hs.misses
  · have hrequests := hs.requests
    simp only [StateCache.insert, List.length_cons]
    omega

omit [DecidableEq δ] in
theorem clear (hs : s.Sound) :
    Sound { cache := (s.cache.clear s.device).1
            device := (s.cache.clear s.device).2
            earlier := s.served ++ s.earlier
            released := s.cache.handles ++ s.released : CacheSession δ kind } where
  numbered := (Device.Evolves.release _ _).numbered hs.numbered
  hashed := List.forall_mem_nil _
  nodup := List.nodup_nil
  described := List.forall_mem_nil _
  served p := by simp [StateCache.clear]
  misses := rfl
  requests := rfl
  released := by
    exact List.nodup_append'.mpr ⟨hs.handles_nodup, hs.released, hs.released_disjoint.symm⟩
  earlier h := by
    simp only [List.mem_append, hs.mem_handles_iff, hs.earlier, exists_or]
  gone h hh := by
    rcases List.mem_append.mp hh with hh | hh
    · obtain ⟨e, he, rfl⟩ := List.mem_map.mp hh
      refine ⟨hs.numbered _ (hs.mem_live he), ?_⟩
      rw [StateCache.clear, Device.live, Device.release, Store.refs_erase, List.mem_filter]
      refine fun hmem ↦ of_decide_eq_true hmem.2 ?_
      exact List.mem_map_of_mem hh
    · obtain ⟨hid, hdead⟩ := hs.gone h hh
      exact ⟨hid, (Device.Evolves.release _ _).not_mem_live hid hdead⟩

end Sound

omit [FaithfulDescriptor δ] in
/-- What a request does: it finds an object, or creates and enters one, or is refused. -/
theorem step_request_cases (s : CacheSession δ kind) (desc : δ) :
    (∃ h, s.cache.find? desc = some h ∧ (s.cache.request desc s.device).1 = .ok h ∧
      s.step (.request desc) = { s with
        cache := { s.cache with hits := s.cache.hits + 1 }, served := (desc, h) :: s.served }) ∨
    (∃ h d', s.cache.find? desc = none ∧ StateDescriptor.create desc s.device = (.ok h, d') ∧
      (s.cache.request desc s.device).1 = .ok h ∧
      s.step (.request desc) = { s with
        cache := s.cache.insert desc h, device := d', served := (desc, h) :: s.served }) ∨
    ∃ cause d', s.cache.find? desc = none ∧
      StateDescriptor.create desc s.device = (.error cause, d') ∧
      (s.cache.request desc s.device).1 = .error cause ∧
      s.step (.request desc) = { s with device := d' } := by
  rcases hfind : s.cache.find? desc with _ | h
  · rcases hrun : StateDescriptor.create desc s.device with ⟨cause | h, d'⟩
    · refine Or.inr (Or.inr ⟨cause, d', rfl, rfl, ?_⟩)
      simp [step, StateCache.request, hfind, DeviceM.on, hrun]
    · refine Or.inr (Or.inl ⟨h, d', rfl, rfl, ?_⟩)
      simp [step, StateCache.request, hfind, DeviceM.on, hrun]
  · refine Or.inl ⟨h, rfl, ?_⟩
    simp [step, StateCache.request, hfind]

theorem Sound.step (hs : s.Sound) (event : CacheEvent δ) : (s.step event).Sound := by
  cases event with
  | request desc =>
    rcases s.step_request_cases desc with
      ⟨h, hfind, -, hstep⟩ | ⟨h, d', hfind, hrun, -, hstep⟩ | ⟨cause, d', -, hrun, -, hstep⟩ <;>
      rw [hstep]
    · exact hs.hit hfind
    · exact hs.miss hfind hrun
    · obtain ⟨content, hcreate, -⟩ := @FaithfulDescriptor.create_eq δ kind _ _ desc
      rw [hcreate] at hrun
      obtain rfl := Device.create_eq_error hrun
      exact hs.elsewhere (Device.Evolves.of_eq rfl rfl) fun _ _ ↦ rfl
  | clear => exact hs.clear
  | failAfter kind after => exact hs.elsewhere (Device.Evolves.of_eq rfl rfl) fun _ _ ↦ rfl
  | create kind content =>
    exact hs.elsewhere (Device.Evolves.create _) fun _ hid ↦ s.device.get?_create _ hid

theorem Sound.run (hs : s.Sound) (events : List (CacheEvent δ)) : (s.run events).Sound := by
  induction events generalizing s with
  | nil => exact hs
  | cons event events ih => exact ih (hs.step event)

/-! ## Refusals -/

/-- What the requests among events are answered. -/
def answers (s : CacheSession δ kind) :
    List (CacheEvent δ) → List (Except DeviceError (Handle kind))
  | [] => []
  | .request desc :: later =>
    (s.cache.request desc s.device).1 :: (s.step (.request desc)).answers later
  | event :: later => (s.step event).answers later

/-- Whether a refusal strikes a creation that an event asks the device for. -/
def strikes (s : CacheSession δ kind) : CacheEvent δ → Bool
  | .request desc => (s.cache.find? desc).isNone && (Device.takeRefusal kind s.device.refusals).1
  | .create kind _ => (Device.takeRefusal kind s.device.refusals).1
  | .clear | .failAfter _ _ => false

/-- Which of events are struck by a refusal. -/
def struck (s : CacheSession δ kind) : List (CacheEvent δ) → List Bool
  | [] => []
  | event :: later => s.strikes event :: (s.step event).struck later

end CacheSession

namespace Device

/-- Other refusals to come, of which just as many strike now, make no difference to a creation. -/
theorem create_refusals {kind : ObjectKind} (content : Except DeviceError kind.Content) (d : Device)
    (refusals : List Refusal)
    (h : (takeRefusal kind refusals).1 = (takeRefusal kind d.refusals).1) :
    create kind (fun _ ↦ content) { d with refusals }
      = ((create kind (fun _ ↦ content) d).1,
        { (create kind (fun _ ↦ content) d).2 with
          refusals := (takeRefusal kind refusals).2 }) := by
  simp only [create, ExceptT.mk, h]
  split
  · rfl
  · cases content <;> rfl

end Device

namespace CacheSession

variable {δ : Type} {kind : ObjectKind} [DecidableEq δ] [StateDescriptor δ kind]
  [FaithfulDescriptor δ] {s : CacheSession δ kind} {desc : δ}

/-- An event that is struck with one list of refusals as with another does the same with both, and
answers the same. -/
theorem step_withRefusals (s : CacheSession δ kind) (event : CacheEvent δ)
    {refusals : List Refusal} (h : (s.withRefusals refusals).strikes event = s.strikes event) :
    ∃ refusals', (s.withRefusals refusals).step event = (s.step event).withRefusals refusals' ∧
      (s.withRefusals refusals).answers [event] = s.answers [event] := by
  cases event with
  | clear => exact ⟨refusals, rfl, rfl⟩
  | failAfter kind after => exact ⟨refusals ++ [⟨kind, after⟩], rfl, rfl⟩
  | create kind content =>
    refine ⟨(Device.takeRefusal kind refusals).2, ?_, rfl⟩
    have hrun := Device.create_refusals content s.device refusals h
    rw [step, step, withRefusals]
    dsimp only
    rw [hrun]
    rfl
  | request desc =>
    rcases hfind : s.cache.find? desc with _ | found
    · obtain ⟨content, hcreate, -⟩ := @FaithfulDescriptor.create_eq δ kind _ _ desc
      have hstrikes : (Device.takeRefusal kind refusals).1
          = (Device.takeRefusal kind s.device.refusals).1 := by
        simpa [strikes, withRefusals, hfind] using h
      have hrun := Device.create_refusals content s.device refusals hstrikes
      refine ⟨(Device.takeRefusal kind refusals).2, ?_⟩
      simp only [answers, step, withRefusals, StateCache.request, hfind, DeviceM.on, hcreate, hrun]
      rcases Device.create kind (fun _ ↦ content) s.device with ⟨cause | h, d'⟩
      · exact ⟨rfl, rfl⟩
      · exact ⟨rfl, rfl⟩
    · refine ⟨refusals, ?_⟩
      simp only [answers, step, withRefusals, StateCache.request, hfind, and_self]

omit [FaithfulDescriptor δ] in
theorem answers_cons (s : CacheSession δ kind) (event : CacheEvent δ)
    (later : List (CacheEvent δ)) :
    s.answers (event :: later) = s.answers [event] ++ (s.step event).answers later := by
  cases event <;> rfl

/-- As long as refusals strike the same events, it does not matter which ones are to come. -/
theorem answers_withRefusals (s : CacheSession δ kind) (refusals : List Refusal)
    {later : List (CacheEvent δ)} (h : (s.withRefusals refusals).struck later = s.struck later) :
    (s.withRefusals refusals).answers later = s.answers later := by
  induction later generalizing s refusals with
  | nil => rfl
  | cons event later ih =>
    obtain ⟨hnow, hlater⟩ := List.cons.inj h
    obtain ⟨refusals', hstep, hanswers⟩ := s.step_withRefusals event hnow
    rw [hstep] at hlater
    rw [answers_cons, hstep, hanswers, ih (s.step event) refusals' hlater, ← answers_cons]

/-- A refused request was for nothing that is cached. It leaves everything as it was, except that it
counts against the refusals to come. -/
theorem Sound.refused (hs : s.Sound) {cause : DeviceError}
    (hrefused : (s.cache.request desc s.device).1 = .error cause) :
    (∀ h, (desc, h) ∉ s.served) ∧
      s.step (.request desc)
        = s.withRefusals (Device.takeRefusal kind s.device.refusals).2 := by
  obtain ⟨content, hcreate, -⟩ := @FaithfulDescriptor.create_eq δ kind _ _ desc
  rcases s.step_request_cases desc with
    ⟨h, -, hanswer, -⟩ | ⟨h, d', -, -, hanswer, -⟩ | ⟨cause, d', hfind, hrun, -, hstep⟩
  · cases hanswer.symm.trans hrefused
  · cases hanswer.symm.trans hrefused
  · refine ⟨fun h hserved ↦ ?_, ?_⟩
    · obtain ⟨e, he, heq⟩ := (hs.served _).mp hserved
      exact StateCache.desc_ne_of_find?_eq_none hs.hashed hfind e he (congrArg Prod.fst heq)
    · rw [hcreate] at hrun
      rw [hstep, Device.create_eq_error hrun]
      rfl

/-! ## What a cache guarantees -/

/-- What holds of a cache, its device and the requests that were answered. -/
structure Deduplicates (s : CacheSession δ kind) : Prop where
  /-- Who was served has an object that is alive, of the requested descriptor. -/
  described : ∀ p ∈ s.served, s.device.descriptor? δ p.2 = some p.1
  /-- Requests get the same object exactly if they are for the same descriptor. -/
  handle_eq_iff : ∀ p ∈ s.served, ∀ q ∈ s.served, p.2 = q.2 ↔ p.1 = q.1
  /-- The cache holds what it created. -/
  size_eq : s.cache.size = s.cache.misses
  /-- It created one object for each descriptor it served. -/
  misses_eq : s.cache.misses = (s.served.map Prod.fst).toFinset.card
  /-- All answered requests are counted. -/
  requests_eq : s.cache.hits + s.cache.misses = s.served.length
  /-- The cached objects are those that were served since the last clear. -/
  cached_iff : ∀ h, h ∈ s.cache.handles ↔ ∃ desc, (desc, h) ∈ s.served
  /-- The objects that were served before were released. -/
  released_iff : ∀ h, h ∈ s.released ↔ ∃ desc, (desc, h) ∈ s.earlier
  /-- No object was released twice, and none that is cached. -/
  nodup : (s.released ++ s.cache.handles).Nodup
  /-- What was released is not alive. -/
  gone : ∀ h ∈ s.released, h.ref ∉ s.device.live

theorem Sound.deduplicates (hs : s.Sound) : s.Deduplicates where
  described p hp := by
    obtain ⟨e, he, rfl⟩ := (hs.served p).mp hp
    exact hs.described e he
  handle_eq_iff p hp q hq := by
    obtain ⟨e, he, rfl⟩ := (hs.served p).mp hp
    obtain ⟨e', he', rfl⟩ := (hs.served q).mp hq
    refine ⟨fun heq ↦ ?_, fun heq ↦ ?_⟩
    · -- an object tells its descriptor
      have hdesc := hs.described e he
      rw [show e.handle = e'.handle from heq, hs.described e' he'] at hdesc
      exact (Option.some.inj hdesc).symm
    · rw [List.inj_on_of_nodup_map hs.nodup he he' heq]
  size_eq := hs.misses.symm
  misses_eq := by
    have hsame : (s.served.map Prod.fst).toFinset = (s.cache.entries.map (·.desc)).toFinset := by
      ext desc
      simp only [List.mem_toFinset, List.mem_map, hs.served]
      constructor
      · rintro ⟨p, ⟨e, he, rfl⟩, rfl⟩
        exact ⟨e, he, rfl⟩
      · rintro ⟨e, he, rfl⟩
        exact ⟨_, ⟨e, he, rfl⟩, rfl⟩
    rw [hsame, List.toFinset_card_of_nodup hs.nodup, List.length_map, hs.misses]
  requests_eq := hs.requests
  cached_iff h := hs.mem_handles_iff
  released_iff := hs.earlier
  nodup := List.nodup_append'.mpr ⟨hs.released, hs.handles_nodup, hs.released_disjoint⟩
  gone h hh := (hs.gone h hh).2

/-- **A cache deduplicates**, in every run and whatever the hash. A refused request was for a
descriptor that is not cached; it leaves the cache as it was, and the answers to all later requests,
as far as the device does not refuse others of them. The hashes in use read the same of two
descriptors exactly if they are equal. -/
theorem run_deduplicates {d : Device} (hd : d.Numbered) (events : List (CacheEvent δ)) :
    let s : CacheSession δ kind := run { device := d } events
    s.Deduplicates ∧
    (∀ desc cause, (s.cache.request desc s.device).1 = .error cause →
      (∀ h, (desc, h) ∉ s.served) ∧
      s.step (.request desc) = s.withRefusals (Device.takeRefusal kind s.device.refusals).2 ∧
      ∀ later, (s.step (.request desc)).struck later = s.struck later →
        (s.step (.request desc)).answers later = s.answers later) ∧
    (∀ a b : SamplerDesc, (a = b ↔ a.words = b.words) ∧ (a = b → a.contentHash = b.contentHash)) ∧
    (∀ a b : BlendDesc, (a = b ↔ a.bytes = b.bytes) ∧ (a = b → a.contentHash = b.contentHash)) ∧
    ∀ a b : DepthStencilDesc,
      (a = b ↔ a.bytes = b.bytes) ∧ (a = b → a.contentHash = b.contentHash) := by
  intro s
  have hs : s.Sound := (Sound.start hd).run events
  refine ⟨hs.deduplicates, fun desc cause hrefused ↦ ?_, fun a b ↦ ?_, fun a b ↦ ?_, fun a b ↦ ?_⟩
  · obtain ⟨hunserved, hstep⟩ := hs.refused hrefused
    refine ⟨hunserved, hstep, fun later hstruck ↦ ?_⟩
    rw [hstep] at hstruck ⊢
    exact s.answers_withRefusals _ hstruck
  · exact ⟨SamplerDesc.words_injective.eq_iff.symm, congrArg _⟩
  · exact ⟨BlendDesc.bytes_injective.eq_iff.symm, congrArg _⟩
  · exact ⟨DepthStencilDesc.bytes_injective.eq_iff.symm, congrArg _⟩

/-- All depth-stencil states may have the same hash. -/
theorem run_deduplicates_constant :
    letI := FaithfulDescriptor.withHash (δ := DepthStencilDesc) fun _ ↦ 0
    letI := StateDescriptor.withHash (δ := DepthStencilDesc) fun _ ↦ 0
    let s : CacheSession DepthStencilDesc .depthStencilState := run { device := {} }
      [.request {}, .clear, .request {}, .request { stencilEnable := true }, .request {},
        .failAfter .depthStencilState 0]
    ({} : Device).Numbered ∧ s.Deduplicates ∧ s.served.map Prod.snd = [⟨2⟩, ⟨3⟩, ⟨2⟩] ∧
      s.released = [⟨1⟩] ∧ (s.cache.hits, s.cache.misses) = (1, 2) ∧
      (s.cache.request { depthEnable := true } s.device).1
        = .error (.outOfMemory .depthStencilState) ∧
      ∀ h, ({ depthEnable := true }, h) ∉ s.served := by
  let := FaithfulDescriptor.withHash (δ := DepthStencilDesc) fun _ ↦ 0
  let := StateDescriptor.withHash (δ := DepthStencilDesc) fun _ ↦ 0
  intro s
  have hd : ({} : Device).Numbered := List.forall_mem_nil _
  obtain ⟨hdeduplicates, hrefused, -⟩ := run_deduplicates hd
    ([.request {}, .clear, .request {}, .request { stencilEnable := true }, .request {},
      .failAfter .depthStencilState 0] : List (CacheEvent DepthStencilDesc))
  have hanswer : (s.cache.request { depthEnable := true } s.device).1
      = .error (.outOfMemory .depthStencilState) := by decide +kernel
  exact ⟨hd, hdeduplicates, by decide +kernel, by decide +kernel, by decide +kernel, hanswer,
    (hrefused _ _ hanswer).1⟩

end CacheSession

end EffectChain
