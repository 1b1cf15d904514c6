import EffectChain.Proofs.Ownership.Operations
import EffectChain.Proofs.Ownership.Vacancy
import EffectChain.Proofs.Tables

/-!
# What is alive belongs to the host or to the engine

Over a whole session, what is alive on the device is what the host created and did not release, what
the engine records, and strays that nobody holds (`Session.owns_step`). The only way for something
to go astray is to name a texture that does not exist yet as the buffer of a swapchain, and to guess
the number that the device gives out next. Without that there are no strays, every object is
recorded once, and resetting releases exactly what the engine created
(`Session.Reachable.live_perm`).
-/

namespace EffectChain

/-- The buffer of a swapchain is not the texture that the device creates next. -/
def Event.Expected (s : Session) : Event → Prop
  | .init swapchain => s.engine.Expects swapchain
  | _ => True

namespace Session

variable {s : Session} {event : Event} {strays : Multiset ObjectRef}

theorem owns_release {refs : List ObjectRef} (hlawful : ∀ r ∈ refs, r ∉ s.engine.refs)
    (h : s.engine.Owns (↑s.host + strays)) :
    (s.step (.release refs)).engine.Owns
      (↑(s.host.filter (· ∉ refs)) + strays.filter (· ∉ refs)) := by
  have hown : s.engine.device.Owns (↑s.host + strays + ↑s.engine.refs) := h
  have hkept : Multiset.filter (· ∉ refs) (↑s.engine.refs : Multiset ObjectRef)
      = ↑s.engine.refs := by
    rw [Multiset.filter_eq_self]
    exact fun r hr hgone ↦ hlawful r hgone (Multiset.mem_coe.mp hr)
  have hreleased := hown.release_filter refs
  -- of the three parts only what the engine records is out of reach
  rw [Multiset.filter_add, Multiset.filter_add, hkept, Multiset.filter_coe] at hreleased
  exact hreleased

theorem owns_create (kind : ObjectKind) (content : Device → Except DeviceError kind.Content)
    (h : s.engine.Owns (↑s.host + strays)) :
    (s.create kind content).engine.Owns (↑(s.create kind content).host + strays) := by
  rw [Session.create]
  have hown : s.engine.device.Owns (↑s.host + strays + ↑s.engine.refs) := h
  rcases hrun : Device.create kind content s.engine.device with ⟨cause | r, d⟩
  · exact hown.create_error hrun
  · have hcreated := hown.create_ok hrun
    rw [← add_assoc, ← add_assoc] at hcreated
    exact hcreated

/-- **An event leaves everything accounted for.** -/
theorem owns_step (htables : s.engine.Tables) (hlawful : event.Lawful s)
    (h : s.engine.Owns (↑s.host + strays)) :
    ∃ strays', (s.step event).engine.Owns (↑(s.step event).host + strays') ∧
      (strays = 0 → event.Expected s → strays' = 0) := by
  have hnames := htables.assets.names
  -- most events leave the host with what it had, and nothing astray
  have hkept {e : Engine} (he : e.Owns (↑s.host + strays)) :
      ∃ strays', e.Owns (↑s.host + strays') ∧
        (strays = 0 → event.Expected s → strays' = 0) :=
    ⟨strays, he, fun hstrays _ ↦ hstrays⟩
  have hdevice {d : Device} (hlive : d.live = s.engine.device.live)
      (hlast : d.lastId = s.engine.device.lastId) :
      ∃ strays', ({ s.engine with device := d } : Engine).Owns (↑s.host + strays') ∧
        (strays = 0 → event.Expected s → strays' = 0) :=
    hkept (h.congr rfl hlive hlast)
  cases event with
  | init swapchain =>
    obtain ⟨new, howns, hnone⟩ := h.init swapchain
    refine ⟨strays + new, by rwa [← add_assoc], fun hstrays hexpected ↦ ?_⟩
    rw [hstrays, hnone (Or.inl hexpected), add_zero]
  | reset => exact hkept h.reset
  | load m => exact hkept (h.load m hnames fun t ht ↦ htables.effect_lt ht)
  | reload index => exact hkept (h.reload index hnames)
  | unload index => exact hkept (h.unload index)
  | unloadAll => exact hkept h.unloadAll
  | upload name pixels => exact hkept (h.upload name pixels)
  | writeUniforms index offset data => exact hkept (h.writeUniforms index offset data)
  | setEnabled name enabled => exact hkept (h.setEnabled name enabled)
  | overrideDepth texture => exact hkept (h.congr rfl rfl rfl)
  | configure config => exact hkept (h.congr rfl rfl rfl)
  | present tracker => exact hkept (h.present tracker)
  | create kind content => exact ⟨strays, owns_create kind content h, fun hstrays _ ↦ hstrays⟩
  | release refs =>
    refine ⟨_, owns_release hlawful h, fun hstrays _ ↦ ?_⟩
    rw [hstrays, Multiset.filter_zero]
  | issue c => exact hdevice (Device.live_issue _ c) (Device.lastId_apply _ c)
  | write texture level data =>
    obtain ⟨hlive, hlast⟩ := Device.live_writeTexels s.engine.device texture level data
    exact hdevice hlive hlast
  | failAfter kind after => exact hdevice rfl rfl
  | markInterrupted => exact hdevice rfl rfl
  | advanceFrame => exact hdevice rfl rfl
  | takeLog => exact hdevice rfl rfl

/-- What is alive is accounted for in every session of a lawful host. -/
theorem Reachable.owns {allowed : Session → Event → Prop}
    (hlawful : ∀ s event, allowed s event → event.Lawful s) (hs : s.Reachable allowed) :
    ∃ strays, s.engine.Owns (↑s.host + strays) ∧
      ((∀ s event, allowed s event → event.Expected s) → strays = 0) := by
  induction hs with
  | start timing config =>
    exact ⟨0, ⟨rfl, Multiset.nodup_zero, nofun⟩, fun _ ↦ rfl⟩
  | @step s event hreach hallowed ih =>
    obtain ⟨strays, howns, hnone⟩ := ih
    obtain ⟨strays', howns', hnone'⟩ := owns_step hreach.tables (hlawful s event hallowed) howns
    exact ⟨strays', howns', fun hexpected ↦
      hnone' (hnone hexpected) (hexpected s event hallowed)⟩

/-- **What is alive is what the host holds and what the engine records, each once.** So resetting,
or failing to prepare for a swapchain, leaves exactly what the host holds. -/
theorem Reachable.live_perm (hs : s.Reachable fun s event ↦ event.Lawful s ∧ event.Expected s) :
    s.device.live.Nodup ∧ s.device.live.Perm (s.host ++ s.engine.refs) ∧
      s.engine.reset.device.live.Perm s.host ∧
      ∀ swapchain cause e, s.engine.init swapchain = (.error cause, e) →
        e.device.live.Perm s.host := by
  obtain ⟨strays, howns, hnone⟩ := hs.owns fun _ _ h ↦ h.1
  rw [hnone fun _ _ h ↦ h.2, add_zero] at howns
  have hperm {e : Engine} (he : e.Owns ↑s.host) : e.device.live.Perm (s.host ++ e.refs) :=
    Multiset.coe_eq_coe.mp (he.live.trans (Multiset.coe_add _ _))
  have hempty {e : Engine} (he : e.Owns ↑s.host) (htidy : e.Tidy) (hb : e.backbuffer = none) :
      e.device.live.Perm s.host := by
    have hlive := hperm he
    rwa [(htidy.bare hb).refs_eq_nil hb, List.append_nil] at hlive
  refine ⟨?_, hperm howns, hempty howns.reset hs.tidy.reset rfl, fun swapchain cause e hinit ↦ ?_⟩
  · have hnodup := howns.nodup
    rwa [← howns.live, Multiset.coe_nodup] at hnodup
  · obtain ⟨new, hafter, hnew⟩ := howns.init swapchain
    have htidy := hs.tidy.init swapchain
    rw [hinit] at hafter hnew htidy
    rw [hnew (Or.inr ⟨cause, rfl⟩), add_zero] at hafter
    refine hempty hafter htidy ?_
    rcases s.engine.init_cases swapchain with ⟨_, d, -, hrun⟩ | ⟨b, d, -, hrun⟩ <;>
      rw [hinit] at hrun <;> cases hrun
    exact s.engine.backbuffer_vacated

/-- A session with an effect loaded. -/
theorem live_perm_small :
    let s := small.step (.load (.single "paint" [{ name := "canvas" }] [] ["canvas"]))
    s.device.live.length = 20 ∧ s.device.live.Perm (s.host ++ s.engine.refs) ∧
      s.engine.reset.device.live.Perm s.host := by
  have hs : (small.step (.load (.single "paint" [{ name := "canvas" }] [] ["canvas"]))).Reachable
      fun s event ↦ event.Lawful s ∧ event.Expected s :=
    .step (.step (.step (.start {} {}) ⟨trivial, trivial⟩) ⟨trivial, fun _ ↦ by decide +kernel⟩)
      ⟨trivial, trivial⟩
  exact ⟨by decide +kernel, (Reachable.live_perm hs).2.1, (Reachable.live_perm hs).2.2.1⟩

/-- If the buffer to be resolved is the texture that the device creates next, that texture is not
recorded, and outlasts a reset. -/
theorem not_live_perm_unexpected :
    let s := (start {} {}).step (.init smallSwapchain)
    s.Reachable Event.Lawful ∧ ¬s.device.live.Perm (s.host ++ s.engine.refs) ∧
      s.host = [] ∧ s.engine.reset.device.live = [⟨.texture, 1⟩] :=
  ⟨.step (.start {} {}) trivial, by decide +kernel, rfl, by decide +kernel⟩

end Session

end EffectChain
