import EffectChain.Proofs.Frame.Uploads
import EffectChain.Proofs.Ownership.Session
import Mathlib.Data.List.Induction

/-!
# Uniform data reaches the device

The uniform data of an effect is kept twice: in the storage that the host writes into, and padded in
a constant buffer, which is filled with zeros when the effect is activated and gets the data when a
technique of the effect runs. A run of a session is followed by a journal for every effect, of the
writes that were accepted and of how many of them the buffer has seen (`Session.Journaled`).

Storage and buffer follow the journal through every event (`Session.follows_step`), so every draw
finds the initial data with all accepted writes in the buffer of its effect, and in the buffers of
the other effects theirs (`Session.Reachable.delivers`). The host is asked not to upload into
buffers of the engine (`Event.LeavesBuffers`).
-/

namespace EffectChain

/-! ## Byte strings -/

namespace Bytes

/-- The byte string with writes, each at an offset, one after the other. -/
def overlays (b : Bytes) (writes : List (Nat × Bytes)) : Bytes :=
  writes.foldl (fun b w ↦ b.overlay w.1 w.2) b

theorem overlays_append (b : Bytes) (writes writes' : List (Nat × Bytes)) :
    b.overlays (writes ++ writes') = (b.overlays writes).overlays writes' := List.foldl_append

@[simp] theorem size_overlays (b : Bytes) (writes : List (Nat × Bytes)) :
    (b.overlays writes).size = b.size := by
  induction writes generalizing b with
  | nil => rfl
  | cons w writes ih => exact (ih _).trans (size_overlay b w.1 w.2)

/-- The bytes with zeros up to the next multiple of 16. -/
structure Pads (content data : Bytes) : Prop where
  /-- The size is a multiple of 16. -/
  multiple : 16 ∣ content.size
  /-- There is room for the data. -/
  size_le : data.size ≤ content.size
  /-- There is no more room than it takes. -/
  lt_size : content.size < data.size + 16
  /-- The data comes first. -/
  byteAt_of_lt : ∀ i < data.size, content.byteAt i = data.byteAt i
  /-- Zeros come after it. -/
  byteAt_of_le : ∀ i, data.size ≤ i → content.byteAt i = 0

theorem pads_fit (data : Bytes) : (fit (uniformBufferSize data.size) data).Pads data where
  multiple := by
    rw [size_fit]
    exact Nat.dvd_mul_left _ _
  size_le := by
    rw [size_fit, uniformBufferSize]
    omega
  lt_size := by
    rw [size_fit, uniformBufferSize]
    omega
  byteAt_of_lt i hi := by
    rw [fit, byteAt_tabulate, if_pos (by rw [uniformBufferSize]; omega)]
  byteAt_of_le i hi := by
    rw [fit, byteAt_tabulate]
    split
    · exact byteAt_of_size_le hi
    · rfl

theorem fit_zeros (n m : Nat) : fit n (zeros m) = zeros n :=
  congrArg (tabulate n) (funext (byteAt_zeros m))

end Bytes

/-! ## Journals -/

/-- What happened to the uniform data of an effect. -/
structure Journal where
  /-- The writes that were accepted, in order. -/
  writes : List (Nat × Bytes) := []
  /-- How many of them the buffer has seen, if it got the data since it was created. -/
  sent : Option Nat := none

namespace Journal

variable (k : Journal) (initial : Bytes)

/-- The data: what the module declares, with all writes. -/
def data : Bytes := initial.overlays k.writes

/-- The data that the buffer got last, or zeros. -/
def shown : Bytes :=
  k.sent.elim (Bytes.zeros initial.size) fun n ↦ initial.overlays (k.writes.take n)

@[simp] theorem size_data : (k.data initial).size = initial.size := Bytes.size_overlays _ _

@[simp] theorem size_shown : (k.shown initial).size = initial.size := by
  rw [shown]
  rcases k.sent with _ | n <;> simp

def last? (i : Nat) : Option (Nat × Bytes) :=
  k.writes.reverse.find? fun w ↦ w.1 ≤ i ∧ i < w.1 + w.2.size

theorem byteAt_data {i : Nat} (hi : i < initial.size) :
    (k.data initial).byteAt i =
      (k.last? i).elim (initial.byteAt i) fun w ↦ w.2.byteAt (i - w.1) := by
  obtain ⟨writes, sent⟩ := k
  induction writes using List.reverseRecOn with
  | nil => rfl
  | append_singleton writes w ih =>
    rw [data, last?, Bytes.overlays_append, List.reverse_append, List.reverse_singleton,
      List.singleton_append, List.find?_cons]
    change ((initial.overlays writes).overlay w.1 w.2).byteAt i = _
    rw [Bytes.overlay, Bytes.byteAt_tabulate, Bytes.size_overlays, if_pos hi]
    by_cases hw : w.1 ≤ i ∧ i < w.1 + w.2.size
    · rw [if_pos hw, decide_eq_true hw]
      rfl
    · rw [if_neg hw, decide_eq_false hw]
      exact ih

theorem pads_data :
    (Bytes.fit (uniformBufferSize initial.size) (k.data initial)).Pads (k.data initial) := by
  have hpads := Bytes.pads_fit (k.data initial)
  rwa [size_data] at hpads

theorem pads_shown :
    (Bytes.fit (uniformBufferSize initial.size) (k.shown initial)).Pads (k.shown initial) := by
  have hpads := Bytes.pads_fit (k.shown initial)
  rwa [size_shown] at hpads

end Journal

/-- The storage and the buffer of an effect are what its journal says. -/
structure Effect.Follows (d : Device) (k : Journal) (e : Effect) : Prop where
  /-- The storage has the data. -/
  storage : e.uniforms = k.data e.module.uniformData
  /-- The buffer has seen no other writes. -/
  sent_le : ∀ n ∈ k.sent, n ≤ k.writes.length
  /-- There is no buffer without data. -/
  unbuffered : ∀ objects, e.objects = some objects → e.module.uniformData.size = 0 →
    objects.uniformBuffer = none
  /-- The buffer has what it got last. -/
  buffered : ∀ objects, e.objects = some objects → e.module.uniformData.size ≠ 0 →
    ∃ x, objects.uniformBuffer = some x ∧ d.get? x = some
      (Bytes.fit (uniformBufferSize e.module.uniformData.size) (k.shown e.module.uniformData))

namespace Effect.Follows

variable {d d' : Device} {k : Journal} {e : Effect}

theorem size_uniforms (h : e.Follows d k) : e.uniforms.size = e.module.uniformData.size := by
  rw [h.storage, Journal.size_data]

theorem get? (h : e.Follows d k) {x : Handle .buffer}
    (hx : e.objects.bind (·.uniformBuffer) = some x) : d.get? x = some
      (Bytes.fit (uniformBufferSize e.module.uniformData.size) (k.shown e.module.uniformData)) := by
  obtain ⟨objects, hobjects, hx⟩ := Option.bind_eq_some_iff.mp hx
  by_cases hsize : e.module.uniformData.size = 0
  · cases (h.unbuffered objects hobjects hsize).symm.trans hx
  · obtain ⟨x', hx', hget⟩ := h.buffered objects hobjects hsize
    cases hx.symm.trans hx'
    exact hget

theorem carry (h : e.Follows d k)
    (hkeeps : ∀ objects x c, e.objects = some objects → objects.uniformBuffer = some x →
      d.get? x = some c → d'.get? x = some c) : e.Follows d' k where
  storage := h.storage
  sent_le := h.sent_le
  unbuffered := h.unbuffered
  buffered objects hobjects hsize := by
    obtain ⟨x, hx, hget⟩ := h.buffered objects hobjects hsize
    exact ⟨x, hx, hkeeps objects x _ hobjects hx hget⟩

theorem write (h : e.Follows d k) (offset : Nat) (bytes : Bytes) :
    ({ e with uniforms := e.uniforms.overlay offset bytes } : Effect).Follows d
      { k with writes := k.writes ++ [(offset, bytes)] } where
  storage := by
    dsimp only
    rw [h.storage, Journal.data, Journal.data, Bytes.overlays_append]
    rfl
  sent_le n hn := (h.sent_le n hn).trans (by simp)
  unbuffered := h.unbuffered
  buffered objects hobjects hsize := by
    obtain ⟨x, hx, hget⟩ := h.buffered objects hobjects hsize
    refine ⟨x, hx, hget.trans ?_⟩
    rw [Journal.shown, Journal.shown]
    rcases hsent : k.sent with _ | n
    · rfl
    · rw [Option.elim_some, Option.elim_some, List.take_append_of_le_length (h.sent_le n hsent)]

theorem send (h : e.Follows d k)
    (hsent : ∀ objects x c, e.objects = some objects → objects.uniformBuffer = some x →
      d.get? x = some c → d'.get? x = some (Bytes.fit c.size e.uniforms)) :
    e.Follows d' { k with sent := some k.writes.length } where
  storage := h.storage
  sent_le n hn := by
    cases hn
    exact Nat.le_refl _
  unbuffered := h.unbuffered
  buffered objects hobjects hsize := by
    obtain ⟨x, hx, hget⟩ := h.buffered objects hobjects hsize
    refine ⟨x, hx, (hsent objects x _ hobjects hx hget).trans ?_⟩
    rw [Bytes.size_fit, h.storage, Journal.shown, Option.elim_some, List.take_length]
    rfl

end Effect.Follows

/-! ## Activation -/

namespace Engine

variable {e : Engine} {index i : Nat}

theorem follows_activate {effect effect' : Effect} {k : Journal}
    (heffect : e.effect? index = some effect) (hinactive : effect.objects = none)
    (hstorage : effect.uniforms = k.data effect.module.uniformData) (hsent : k.sent = none)
    (hlive : ∀ x, (e.activate index).2.uniformBuffer? index = some x →
      ∃ c, (e.activate index).2.device.get? x = some c)
    (hafter : (e.activate index).2.effect? index = some effect') :
    effect'.Follows (e.activate index).2.device k := by
  have hnone : ∀ n ∈ k.sent, n ≤ k.writes.length := by simp [hsent]
  rcases hrun : e.activate index with ⟨cause | _, e'⟩ <;> rw [hrun] at hlive hafter
  · rw [(activate_eq_error hrun).1 index, if_pos rfl, heffect] at hafter
    cases hafter
    exact ⟨hstorage, hnone, by simp [hinactive], by simp [hinactive]⟩
  · obtain ⟨_, textures, d, b, objects, hsame, -, -, -, hbuild, heffects, -⟩ := activate_eq_ok hrun
    cases heffect.symm.trans hsame
    rw [heffects index, if_pos rfl] at hafter
    cases hafter
    have hsize : effect.uniforms.size = effect.module.uniformData.size := by
      rw [hstorage, Journal.size_data]
    obtain ⟨hempty, hbuffer⟩ := uniformBuffer_of_buildEffect hbuild
    rw [hsize] at hempty hbuffer
    refine ⟨hstorage, hnone, fun objects' hobjects hzero ↦ ?_, fun objects' hobjects hpos ↦ ?_⟩
    · cases hobjects
      exact hempty hzero
    · cases hobjects
      obtain ⟨x, a, hx, hid, hget, hbuilds⟩ := hbuffer hpos
      have hafter : e'.uniformBuffer? index = some x := by
        rw [uniformBuffer?, objects?, heffects index, if_pos rfl]
        exact hx
      obtain ⟨c, hc⟩ := hlive x hafter
      -- what is built after the buffer issues no command on it
      have hzeros := hbuilds.works.get?_of_ne (by decide) (fun c hc d ↦ by
        obtain ⟨view, rfl⟩ := hc
        exact Command.touched?_of_not_isUpload rfl d x) hid hc
      cases hget.symm.trans hzeros
      refine ⟨x, hx, hc.trans ?_⟩
      rw [Journal.shown, hsent, Option.elim_none, Bytes.fit_zeros]

theorem Owns.uniformBuffer_live {others : Multiset ObjectRef} (h : e.Owns others)
    {x : Handle .buffer} (hx : e.uniformBuffer? index = some x) :
    ∃ c, e.device.get? x = some c := by
  obtain ⟨objects, hobjects, hx⟩ := Option.bind_eq_some_iff.mp hx
  have hmem : x.ref ∈ objects.refs := by simp [EffectObjects.refs, hx]
  exact Device.get?_of_mem_live (h.objects_live hobjects _ hmem)

theorem mem_refs_of_uniformBuffer {x : Handle .buffer} (hx : e.uniformBuffer? index = some x) :
    x.ref ∈ e.refs := by
  obtain ⟨objects, hobjects, hx⟩ := Option.bind_eq_some_iff.mp hx
  exact mem_refs_of_objects hobjects _ (by simp [EffectObjects.refs, hx])

end Engine

/-! ## Sessions -/

/-- The host leaves the engine its objects, and the contents of its constant buffers. -/
def Event.LeavesBuffers (s : Session) : Event → Prop
  | .release refs => ∀ r ∈ refs, r ∉ s.engine.refs
  | .issue (.updateConstantBuffer buffer _) => buffer.ref ∉ s.engine.refs
  | _ => True

theorem Event.LeavesBuffers.lawful {s : Session} {event : Event} (h : event.LeavesBuffers s) :
    event.Lawful s := by
  cases event with
  | release refs => exact h
  | _ => trivial

/-- The journals after an event, by the index of the effect. Loading begins one, and reloading gives
the effect a buffer that has seen nothing yet. -/
def Event.journals (s : Session) (js : Nat → Journal) : Event → Nat → Journal
  | .load _, i => if i = s.engine.effects.length then {} else js i
  | .reload index, i => if i = index then { js i with sent := none } else js i
  | .writeUniforms index offset data, i =>
    if i = index ∧ (s.engine.writeUniforms index offset data).1.isOk then
      { js i with writes := (js i).writes ++ [(offset, data)] }
    else js i
  | .present _, i =>
    if s.engine.backbuffer.isSome ∧ i ∈ runningEffects s.engine.effect? s.engine.techniques then
      { js i with sent := some (js i).writes.length }
    else js i
  | _, i => js i

/-- The sessions that a run of allowed events leads to, with the journals of their effects. -/
inductive Session.Journaled (allowed : Session → Event → Prop) : Session → (Nat → Journal) → Prop
  /-- A new session. -/
  | start (timing : DeviceTiming) (config : Config) :
    Journaled allowed (Session.start timing config) fun _ ↦ {}
  /-- One more event. -/
  | step {s : Session} {js : Nat → Journal} {event : Event} : Journaled allowed s js →
    allowed s event → Journaled allowed (s.step event) (event.journals s js)

def Session.Follows (s : Session) (js : Nat → Journal) : Prop :=
  ∀ i effect, s.engine.effect? i = some effect → effect.Follows s.device (js i)

namespace Session

variable {s : Session} {js : Nat → Journal} {event : Event}

theorem Journaled.reachable {allowed : Session → Event → Prop} (h : s.Journaled allowed js) :
    s.Reachable allowed := by
  induction h with
  | start timing config => exact .start timing config
  | step _ hallowed ih => exact .step ih hallowed

theorem Reachable.exists_journaled {allowed : Session → Event → Prop} (hs : s.Reachable allowed) :
    ∃ js, s.Journaled allowed js := by
  induction hs with
  | start timing config => exact ⟨_, .start timing config⟩
  | step _ hallowed ih =>
    obtain ⟨js, hjs⟩ := ih
    exact ⟨_, hjs.step hallowed⟩

theorem Reachable.uniformBuffer_live (hs : s.Reachable Event.LeavesBuffers) {i : Nat}
    {x : Handle .buffer} (hx : s.engine.uniformBuffer? i = some x) :
    ∃ c, s.device.get? x = some c := by
  obtain ⟨strays, howns, -⟩ := hs.owns fun _ _ h ↦ h.lawful
  exact howns.uniformBuffer_live hx

/-- Only frames change what is in the buffer of an effect, and only deactivation takes it away. -/
theorem get?_step (hs : s.Reachable Event.LeavesBuffers) (hallowed : event.LeavesBuffers s)
    (hpresent : ∀ tracker, event ≠ .present tracker) {i : Nat} {x : Handle .buffer} {c : Bytes}
    (hbefore : s.engine.uniformBuffer? i = some x)
    (hafter : (s.step event).engine.uniformBuffer? i = some x) (hget : s.device.get? x = some c) :
    (s.step event).device.get? x = some c := by
  obtain ⟨c', hget'⟩ := (hs.step hallowed).uniformBuffer_live hafter
  have hsame : s.device.get? x = some c' := by
    refine (s.works_step event).get?_of_ne (by decide) (fun c hc d htouched ↦ ?_)
      (hs.numbered.id_le hget) hget'
    rcases Event.kind_of_issues hpresent hc with rfl | hkind
    · rcases Device.touched?_cases htouched with hkind | ⟨y, data, rfl, href⟩ | ⟨q, -, href⟩
      · cases hkind
      · obtain rfl : x = y := Handle.ref_inj.mp href
        exact hallowed (Engine.mem_refs_of_uniformBuffer hbefore)
      · cases congrArg ObjectRef.kind href
    · cases hkind d _ htouched
  cases hget.symm.trans hsame
  exact hget'

/-- An effect that an event leaves alone follows its journal as before. -/
theorem Follows.carry (h : s.Follows js) (hs : s.Reachable Event.LeavesBuffers)
    (hallowed : event.LeavesBuffers s) (hpresent : ∀ tracker, event ≠ .present tracker) {i : Nat}
    {effect : Effect} (hafter : (s.step event).engine.effect? i = some effect)
    (hbefore : s.engine.effect? i = some effect) : effect.Follows (s.step event).device (js i) := by
  refine (h i effect hbefore).carry fun objects x c hobjects hx hget ↦ ?_
  have hbuffer {e : Engine} (he : e.effect? i = some effect) : e.uniformBuffer? i = some x := by
    rw [Engine.uniformBuffer?_eq he, hobjects]
    exact hx
  exact get?_step hs hallowed hpresent (hbuffer hbefore) (hbuffer hafter) hget

/-- A frame sends the data of the effects whose techniques run. -/
theorem follows_present (hs : s.Reachable Event.LeavesBuffers) (h : s.Follows js)
    (tracker : DepthTracker) :
    (s.step (.present tracker)).Follows ((Event.present tracker).journals s js) := by
  intro i effect heffect
  change (s.engine.present tracker).effect? i = some effect at heffect
  change effect.Follows (s.engine.present tracker).device _
  rw [Event.journals]
  rcases hb : s.engine.backbuffer with _ | b
  · rw [Engine.present, hb] at heffect ⊢
    rw [if_neg (by simp)]
    exact h i effect heffect
  · have hbefore : s.engine.effect? i = some effect := by
      obtain ⟨techniques, cs, -, -, hpresent⟩ := Engine.present_eq hb tracker
      rw [hpresent] at heffect
      exact heffect
    obtain ⟨strays, howns, -⟩ := hs.owns fun _ _ h ↦ h.lawful
    obtain ⟨cs, -, -, hsent⟩ := Engine.sent_present hs.tables.loaded howns.separateBuffers
      hs.numbered hb tracker
    have hsent (objects : EffectObjects) x c (hobjects : effect.objects = some objects)
        (hx : objects.uniformBuffer = some x) (hget : s.device.get? x = some c) :=
      hsent i effect x c hbefore (by rw [hobjects]; exact hx) hget
    split
    · rename_i hruns
      exact (h i effect hbefore).send fun objects x c hobjects hx hget ↦ by
        rw [hsent objects x c hobjects hx hget, if_pos hruns.2]
    · rename_i hidle
      exact (h i effect hbefore).carry fun objects x c hobjects hx hget ↦ by
        rw [hsent objects x c hobjects hx hget, if_neg fun hi ↦ hidle ⟨rfl, hi⟩]

/-- An effect that is loaded has the data of its module, and zeros in its buffer. -/
theorem follows_load (hs : s.Reachable Event.LeavesBuffers) (h : s.Follows js) (m : EffectModule) :
    (s.step (.load m)).Follows ((Event.load m).journals s js) := by
  intro i effect heffect
  have hallowed : (Event.load m).LeavesBuffers s := trivial
  have hafter := hs.step hallowed
  have hlive : ∀ x, (s.engine.load m).2.uniformBuffer? i = some x →
      ∃ c, (s.engine.load m).2.device.get? x = some c := fun x hx ↦ hafter.uniformBuffer_live hx
  have hcarry : _ → effect.Follows (s.engine.load m).2.device (js i) :=
    h.carry hs hallowed (by simp) heffect
  change (s.engine.load m).2.effect? i = some effect at heffect
  change effect.Follows (s.engine.load m).2.device _
  rw [Event.journals]
  rcases s.engine.load_cases m with ⟨-, hload⟩ | ⟨-, hload⟩ <;> rw [hload] at heffect hlive hcarry ⊢
  · rw [if_neg (Nat.ne_of_lt (Engine.effect?_lt heffect))]
    exact hcarry heffect
  · have hregistered : (s.engine.register m.reserveSlots).effect? i = _ :=
      s.engine.effect?_append { module := m.reserveSlots, uniforms := m.uniformData } i
    by_cases hi : i = s.engine.effects.length
    · subst hi
      rw [if_pos rfl] at hregistered ⊢
      exact Engine.follows_activate hregistered rfl rfl rfl hlive heffect
    · rw [if_neg hi]
      refine hcarry ?_
      rwa [Engine.effect?_activate_of_ne (Ne.symm hi), hregistered, if_neg (Ne.symm hi)] at heffect

/-- An effect that is reloaded keeps its storage, and has zeros in its buffer. -/
theorem follows_reload (hs : s.Reachable Event.LeavesBuffers) (h : s.Follows js) (index : Nat) :
    (s.step (.reload index)).Follows ((Event.reload index).journals s js) := by
  intro i effect heffect
  have hallowed : (Event.reload index).LeavesBuffers s := trivial
  have hafter := hs.step hallowed
  have hlive : ∀ x, (s.engine.reload index).2.uniformBuffer? i = some x →
      ∃ c, (s.engine.reload index).2.device.get? x = some c :=
    fun x hx ↦ hafter.uniformBuffer_live hx
  have hcarry : _ → effect.Follows (s.engine.reload index).2.device (js i) :=
    h.carry hs hallowed (by simp) heffect
  change (s.engine.reload index).2.effect? i = some effect at heffect
  change effect.Follows (s.engine.reload index).2.device _
  rw [Event.journals]
  rcases hs.tables.reload_cases index with ⟨hbefore, hrun⟩ | ⟨old, hbefore, hrun⟩ <;>
    rw [hrun] at heffect hlive hcarry ⊢
  · rw [if_neg fun hi ↦ by rw [hi, hbefore] at heffect; cases heffect]
    exact hcarry heffect
  · by_cases hi : i = index
    · subst hi
      rw [if_pos rfl]
      exact Engine.follows_activate (Engine.effect?_deactivate_self hbefore) rfl
        (h i old hbefore).storage rfl hlive heffect
    · rw [if_neg hi]
      refine hcarry ?_
      rwa [Engine.effect?_activate_of_ne (Ne.symm hi), Engine.effect?_deactivate,
        if_neg (Ne.symm hi)] at heffect

theorem follows_writeUniforms (h : s.Follows js) (index offset : Nat) (data : Bytes) :
    (s.step (.writeUniforms index offset data)).Follows
      ((Event.writeUniforms index offset data).journals s js) := by
  intro i effect heffect
  change (s.engine.writeUniforms index offset data).2.effect? i = some effect at heffect
  change effect.Follows (s.engine.writeUniforms index offset data).2.device _
  rw [Event.journals]
  rcases s.engine.writeUniforms_cases index offset data with
    ⟨cause, hrun, -⟩ | ⟨old, hbefore, -, hrun⟩ <;> rw [hrun] at heffect ⊢
  · rw [if_neg (by simp [Except.isOk, Except.toBool])]
    exact h i effect heffect
  · rw [Engine.effect?_modify] at heffect
    by_cases hi : i = index
    · subst hi
      rw [if_pos rfl, hbefore] at heffect
      cases heffect
      rw [if_pos ⟨rfl, rfl⟩]
      exact (h i old hbefore).write offset data
    · rw [if_neg (Ne.symm hi)] at heffect
      rw [if_neg fun hboth ↦ hi hboth.1]
      exact h i effect heffect

/-- **Every event keeps effects and journals in step.** -/
theorem follows_step (hs : s.Reachable Event.LeavesBuffers) (hallowed : event.LeavesBuffers s)
    (h : s.Follows js) : (s.step event).Follows (event.journals s js) := by
  -- all other events leave the effects alone, or take some away
  have hkeep (hpresent : ∀ tracker, event ≠ .present tracker)
      (heffects : ∀ i effect, (s.step event).engine.effect? i = some effect →
        s.engine.effect? i = some effect) : (s.step event).Follows js :=
    fun i effect heffect ↦ h.carry hs hallowed hpresent heffect (heffects i effect heffect)
  cases event with
  | present tracker => exact follows_present hs h tracker
  | load m => exact follows_load hs h m
  | reload index => exact follows_reload hs h index
  | writeUniforms index offset data => exact follows_writeUniforms h index offset data
  | init swapchain =>
    refine hkeep (by simp) fun i effect heffect ↦ ?_
    change (s.engine.init swapchain).2.effect? i = some effect at heffect
    have hvacated : s.engine.vacated.effect? i = some effect := by
      rcases s.engine.init_cases swapchain with ⟨cause, d, -, hinit⟩ | ⟨b, d, -, hinit⟩ <;>
        rw [hinit] at heffect <;> exact heffect
    exact Engine.vacated_induction (P := fun e ↦
      e.effect? i = some effect → s.engine.effect? i = some effect) id
      (fun hreset ↦ by cases hreset) hvacated
  | reset | unloadAll => exact hkeep (by simp) fun i effect heffect ↦ by cases heffect
  | unload index =>
    refine hkeep (by simp) fun i effect heffect ↦ ?_
    change (s.engine.unload index).2.effect? i = some effect at heffect
    rw [Engine.effect?_unload] at heffect
    split at heffect
    · cases heffect
    · exact heffect
  | upload name pixels =>
    refine hkeep (by simp) fun i effect heffect ↦ ?_
    change (s.engine.upload name pixels).2.effect? i = some effect at heffect
    rcases s.engine.upload_cases name pixels with ⟨cause, hrun⟩ | ⟨t, o, data, rowPitch, -, -, hrun⟩
      <;> rw [hrun] at heffect <;> exact heffect
  | create kind content =>
    refine hkeep (by simp) fun i effect heffect ↦ ?_
    change (s.create kind content).engine.effect? i = some effect at heffect
    rw [engine_create] at heffect
    exact heffect
  | setEnabled | overrideDepth | configure | release | issue | write | failAfter | markInterrupted
  | advanceFrame | takeLog => exact hkeep (by simp) fun i effect heffect ↦ heffect

theorem Journaled.follows (h : s.Journaled Event.LeavesBuffers js) : s.Follows js := by
  induction h with
  | start timing config => exact fun i effect heffect ↦ by cases heffect
  | step hbefore hallowed ih => exact follows_step hbefore.reachable hallowed ih

end Session

/-! ## What draws find -/

/-- A draw of a pass finds the data of its effect in the buffer that is bound, and in the buffers of
all effects what they got last or their data. -/
structure DrawnPass.Reads (e : Engine) (js : Nat → Journal) (x : DrawnPass)
    (y : (UInt32 × Pipeline) × Device) : Prop where
  /-- The buffer of its effect is bound, with the data of the effect. -/
  own : ∃ effect, e.effect? x.technique.effect = some effect ∧
    (effect.module.uniformData.size ≠ 0 → ∃ buffer content,
      y.1.2.constantBuffer = some buffer ∧ y.2.get? buffer = some content ∧
        content.Pads ((js x.technique.effect).data effect.module.uniformData))
  /-- Every buffer has data of its own effect. -/
  all : ∀ i effect buffer, e.effect? i = some effect → e.uniformBuffer? i = some buffer →
    ∃ content, y.2.get? buffer = some content ∧
      (content.Pads ((js i).shown effect.module.uniformData) ∨
        content.Pads ((js i).data effect.module.uniformData))

/-- What a session makes of the uniform data of its effects. -/
structure Session.Delivers (s : Session) (js : Nat → Journal) : Prop where
  /-- The storage has the initial data with the writes that were accepted. -/
  storage : ∀ i effect, s.engine.effect? i = some effect →
    effect.uniforms = (js i).data effect.module.uniformData
  /-- Each of its bytes is that of the last accepted write over it. -/
  latest : ∀ i effect n, s.engine.effect? i = some effect → n < effect.module.uniformData.size →
    effect.uniforms.byteAt n = ((js i).last? n).elim (effect.module.uniformData.byteAt n) fun w ↦
      w.2.byteAt (n - w.1)
  /-- A write is accepted exactly if it lies in the storage. -/
  accepts : ∀ i effect offset data, s.engine.effect? i = some effect →
    ((s.engine.writeUniforms i offset data).1.isOk ↔
      offset + data.size ≤ effect.module.uniformData.size)
  /-- A write that is refused changes nothing. -/
  refuses : ∀ i offset data, (s.engine.writeUniforms i offset data).1.isOk = false →
    (s.engine.writeUniforms i offset data).2 = s.engine
  /-- An active effect with uniform data has a buffer, with what it got last. -/
  buffer : ∀ i effect, s.engine.effect? i = some effect → effect.isActive →
    effect.module.uniformData.size ≠ 0 → ∃ buffer content,
      s.engine.uniformBuffer? i = some buffer ∧ s.device.get? buffer = some content ∧
        content.Pads ((js i).shown effect.module.uniformData)
  /-- No two effects share a buffer. -/
  separate : s.engine.SeparateBuffers
  /-- Every draw of a frame finds the data of its effect. -/
  draws : ∀ b tracker, s.engine.backbuffer = some b → ∃ cs,
    (s.engine.present tracker).device = (s.engine.frameDevice b tracker).issueAll cs ∧
      ∀ p : Pipeline, (∀ k, p.views k = none) →
        List.Forall₂ (fun x y ↦
            x.Makes s.engine b (s.engine.present tracker).depth.view y.1 ∧ x.Reads s.engine js y)
          (drawnPasses s.engine.techniques) (p.drawsOn (s.engine.frameDevice b tracker) cs)

namespace Session

variable {s : Session} {js : Nat → Journal}

/-- What a draw finds, if effects followed their journals when the frame began. -/
theorem Follows.reads (h : s.Follows js) (hsound : s.engine.Sound) {b : Backbuffer}
    {depthView : Option (Handle .shaderView)} {x : DrawnPass} {y : (UInt32 × Pipeline) × Device}
    (hx : x ∈ drawnPasses s.engine.techniques) (hmakes : x.Makes s.engine b depthView y.1)
    (hfinds : x.Finds s.engine s.device y.2) : x.Reads s.engine js y := by
  obtain ⟨indices, hmem, hsent⟩ := hfinds
  obtain ⟨ht, -, hstate, -⟩ := mem_drawnPasses_iff.mp hx
  obtain ⟨-, objects, -, hobjects, -⟩ := hsound.techniques _ ht _ hstate
  obtain ⟨effect, heffect, hactive⟩ := Option.bind_eq_some_iff.mp hobjects
  have hfound {i : Nat} {effect : Effect} {buffer : Handle .buffer}
      (heffect : s.engine.effect? i = some effect)
      (hbuffer : effect.objects.bind (·.uniformBuffer) = some buffer) :=
    hsent i effect buffer _ heffect hbuffer ((h i effect heffect).get? hbuffer)
  refine ⟨⟨effect, heffect, fun hsize ↦ ?_⟩, fun i other buffer hother hbuffer ↦ ?_⟩
  · have hfollows := h _ effect heffect
    obtain ⟨buffer, hbuffer, -⟩ := hfollows.buffered objects hactive hsize
    have hown : effect.objects.bind (·.uniformBuffer) = some buffer := by
      rw [hactive]
      exact hbuffer
    refine ⟨buffer, _, ?_, hfound heffect hown, ?_⟩
    · rw [hmakes.2.constantBuffer, Engine.uniformBuffer?_eq heffect, hown]
    · rw [if_pos hmem, Bytes.size_fit, hfollows.storage]
      exact Journal.pads_data _ _
  · rw [Engine.uniformBuffer?_eq hother] at hbuffer
    refine ⟨_, hfound hother hbuffer, ?_⟩
    split
    · rw [Bytes.size_fit, (h i other hother).storage]
      exact Or.inr (Journal.pads_data _ _)
    · exact Or.inl (Journal.pads_shown _ _)

/-- **Uniform data reaches the device.** In every session whose host leaves the buffers alone, a
write is accepted exactly if it lies in the storage, a refused one changes nothing, and every draw
of a pass finds in the bound buffer the initial data of its effect with all accepted writes in
order, padded by zeros to a multiple of 16. The buffers of other effects hold their own data. -/
theorem Reachable.delivers (hs : s.Reachable Event.LeavesBuffers) :
    (∃ js, s.Journaled Event.LeavesBuffers js) ∧
      ∀ js, s.Journaled Event.LeavesBuffers js → s.Delivers js := by
  refine ⟨hs.exists_journaled, fun js hjs ↦ ?_⟩
  have hfollows := hjs.follows
  obtain ⟨strays, howns, -⟩ := hs.owns fun _ _ h ↦ h.lawful
  refine {
    storage := fun i effect heffect ↦ (hfollows i effect heffect).storage
    latest := fun i effect n heffect hn ↦ ?_
    accepts := fun i effect offset data heffect ↦ ?_
    refuses := fun i offset data hrefused ↦ ?_
    buffer := fun i effect heffect hactive hsize ↦ ?_
    separate := howns.separateBuffers
    draws := fun b tracker hb ↦ ?_ }
  · rw [(hfollows i effect heffect).storage]
    exact Journal.byteAt_data _ _ hn
  · have hsize := (hfollows i effect heffect).size_uniforms
    rcases s.engine.writeUniforms_cases i offset data with
      ⟨cause, hrun, hpast⟩ | ⟨other, hother, hfits, hrun⟩ <;> rw [hrun]
    · have hlt := hsize ▸ hpast effect heffect
      simp [Except.isOk, Except.toBool, hlt]
    · cases heffect.symm.trans hother
      exact iff_of_true rfl (hsize ▸ hfits)
  · rcases s.engine.writeUniforms_cases i offset data with
      ⟨cause, hrun, -⟩ | ⟨other, -, -, hrun⟩ <;> rw [hrun] at hrefused ⊢
    cases hrefused
  · obtain ⟨objects, hobjects⟩ := Option.isSome_iff_exists.mp hactive
    obtain ⟨buffer, hbuffer, hget⟩ := (hfollows i effect heffect).buffered objects hobjects hsize
    refine ⟨buffer, _, ?_, hget, Journal.pads_shown _ _⟩
    rw [Engine.uniformBuffer?_eq heffect, hobjects]
    exact hbuffer
  · -- every draw reads the buffer that its technique sent ahead of it
    obtain ⟨cs, hdevice, hdraws⟩ :=
      Engine.drawsOn_eq hs.tables howns.separateBuffers hs.numbered hb tracker
    refine ⟨cs, hdevice, fun p hviews ↦ ?_⟩
    refine ((List.forall₂_and_left _ _).mpr ⟨fun x hx ↦ hx, hdraws p hviews⟩).imp ?_
    rintro x y ⟨hx, hmakes, hfinds⟩
    exact ⟨hmakes, hfollows.reads hs.sound hx hmakes hfinds⟩

/-- Two effects with uniform data, of which one was written to before a frame. -/
theorem delivers_small :
    let s := (((small.step (.load { EffectModule.single "tint" [] [] [] with
        uniformData := ⟨#[1, 2, 3]⟩ })).step
      (.load { EffectModule.single "blur" [] [] [] with uniformData := ⟨#[7]⟩ })).step
        (.writeUniforms 0 1 ⟨#[9]⟩)).step (.present {})
    ((s.engine.uniformBuffer? 0).bind s.device.get?
        = some ⟨#[1, 9, 3, 0, 0, 0, 0, 0, 0, 0, 0, 0, 0, 0, 0, 0]⟩ ∧
      (s.engine.uniformBuffer? 1).bind s.device.get?
        = some ⟨#[7, 0, 0, 0, 0, 0, 0, 0, 0, 0, 0, 0, 0, 0, 0, 0]⟩) ∧
      ∃ js, s.Journaled Event.LeavesBuffers js ∧ s.Delivers js := by
  intro s
  have hs : s.Reachable Event.LeavesBuffers :=
    .step (.step (.step (.step (.step (.step (.start {} {}) trivial) trivial) trivial) trivial)
      trivial) trivial
  obtain ⟨⟨js, hjs⟩, hdelivers⟩ := Reachable.delivers hs
  exact ⟨by decide +kernel, js, hjs, hdelivers js hjs⟩

end Session

end EffectChain
