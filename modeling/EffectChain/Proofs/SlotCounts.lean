import EffectChain.Proofs.Coherence

/-!
# Slot counts

The slot tables of an effect are as long as its module says, within what the device has. A module is
free to say something else than what its samplers use, so its counts are raised when it is loaded:
afterwards they cover every slot in use, except that the largest word stops at itself
(`toNat_coverSlots`). This exception is far beyond what the device has. So a sampler whose slots the
device has finds them in the tables (`SlotTables.lt_length_of_bindAll`), whatever the module says.

What is loaded keeps the module it was loaded with, counts included (`Session.Reachable.reserved`).
-/

namespace EffectChain

/-- One more than the largest of some slots; none without slots. -/
def usedSlots (slots : List UInt32) : Nat := (slots.map fun slot ↦ slot.toNat + 1).foldr max 0

theorem usedSlots_nil : usedSlots [] = 0 := rfl

theorem usedSlots_cons (slot : UInt32) (slots : List UInt32) :
    usedSlots (slot :: slots) = max (slot.toNat + 1) (usedSlots slots) := rfl

theorem lt_usedSlots {slot : UInt32} {slots : List UInt32} (h : slot ∈ slots) :
    slot.toNat < usedSlots slots := by
  induction slots with
  | nil => cases h
  | cons first rest ih =>
    rw [usedSlots_cons]
    rcases List.mem_cons.mp h with rfl | h
    · omega
    · have := ih h
      omega

namespace EffectModule

theorem coverSlots_cons (count slot : UInt32) (rest : List UInt32) :
    coverSlots count (slot :: rest) = coverSlots (max count (satAdd slot 1)) rest := rfl

/-- **A count covers the slots in use**, as far as words go. -/
theorem toNat_coverSlots (count : UInt32) (slots : List UInt32) :
    (coverSlots count slots).toNat
      = min (max count.toNat (usedSlots slots)) (UInt32.size - 1) := by
  induction slots generalizing count with
  | nil =>
    have hcount : count.toNat ≤ UInt32.size - 1 := Nat.le_sub_one_of_lt count.toNat_lt_size
    rw [coverSlots, List.foldl_nil, usedSlots_nil, Nat.max_zero, Nat.min_eq_left hcount]
  | cons slot rest ih =>
    have hmax : (max count (satAdd slot 1)).toNat
        = max count.toNat (min (slot.toNat + 1) (UInt32.size - 1)) := by
      have hadd : (satAdd slot 1).toNat = min (slot.toNat + 1) (UInt32.size - 1) :=
        toNat_satAdd slot 1
      rw [← hadd, UInt32.max_def, Nat.max_def]
      simp only [UInt32.le_iff_toNat_le]
      split <;> rfl
    rw [coverSlots_cons, ih, hmax, usedSlots_cons]
    generalize UInt32.size - 1 = largest
    omega

theorem coverSlots_coverSlots (count : UInt32) (slots : List UInt32) :
    coverSlots (coverSlots count slots) slots = coverSlots count slots := by
  rw [← UInt32.toNat_inj]
  simp only [toNat_coverSlots]
  generalize UInt32.size - 1 = largest
  omega

theorem reserveSlots_reserveSlots (m : EffectModule) :
    m.reserveSlots.reserveSlots = m.reserveSlots := by
  simp only [reserveSlots, coverSlots_coverSlots]

end EffectModule

/-! ## The tables of a module -/

namespace SlotTables

variable {tables tables' : SlotTables} {a a' : Assets} {m : EffectModule}

theorem min_toNat_coverSlots {limit : Nat} (hlimit : limit < UInt32.size) (count : UInt32)
    (slots : List UInt32) :
    min (EffectModule.coverSlots count slots).toNat limit
      = min limit (max count.toNat (usedSlots slots)) := by
  rw [EffectModule.toNat_coverSlots]
  generalize UInt32.size = size at hlimit ⊢
  omega

/-- **The tables of a module that is loaded** have room for the slots that it says or uses, within
what the device has. -/
theorem length_ofModule (m : EffectModule) :
    (ofModule m.reserveSlots).samplers.length
        = min maxSamplerSlots (max m.samplerSlots.toNat (usedSlots (m.samplers.map (·.binding)))) ∧
      (ofModule m.reserveSlots).bindings.length
        = min maxTextureSlots
            (max m.textureSlots.toNat (usedSlots (m.samplers.map (·.textureBinding)))) := by
  rw [ofModule, List.length_replicate, List.length_replicate]
  exact ⟨min_toNat_coverSlots (by decide) _ _, min_toNat_coverSlots (by decide) _ _⟩

theorem length_bind {s : SamplerDecl} (run : tables.bind s a = (.ok tables', a')) :
    tables'.samplers.length = tables.samplers.length ∧
      tables'.bindings.length = tables.bindings.length := by
  rcases tables.bind_cases s a with
    ⟨-, e, hrun⟩ | ⟨slot, -, ⟨-, hrun⟩ | ⟨-, hrun⟩⟩ <;> rw [hrun] at run
  · cases run
  · cases run
    exact ⟨rfl, List.length_set⟩
  · rcases hstate : BuildM.state (SamplerDesc.ofDecl s)
        (.samplerCreation s.name (SamplerDesc.ofDecl s)) a with ⟨e | state, a₁⟩ <;>
      rw [hstate] at run <;> cases run
    exact ⟨List.length_set, List.length_set⟩

theorem length_bindAll {samplers : List SamplerDecl}
    (run : tables.bindAll samplers a = (.ok tables', a')) :
    tables'.samplers.length = tables.samplers.length ∧
      tables'.bindings.length = tables.bindings.length := by
  induction samplers generalizing tables a with
  | nil =>
    cases run
    exact ⟨rfl, rfl⟩
  | cons s rest ih =>
    obtain ⟨tables₁, a₁, hfirst, hrest⟩ := bind_eq_ok run
    obtain ⟨hsamplers, hbindings⟩ := length_bind hfirst
    obtain ⟨hsamplers', hbindings'⟩ := ih hrest
    exact ⟨hsamplers'.trans hsamplers, hbindings'.trans hbindings⟩

/-- **The slots of a sampler are in the tables**, if the device has them, however many samplers were
bound before. -/
theorem lt_length_of_bindAll (hm : m.reserveSlots = m) {before : List SamplerDecl}
    (run : (ofModule m).bindAll before a = (.ok tables, a')) {s : SamplerDecl}
    (hs : s ∈ m.samplers) :
    (s.binding.toNat < maxSamplerSlots → s.binding.toNat < tables.samplers.length) ∧
      (s.textureBinding.toNat < maxTextureSlots →
        s.textureBinding.toNat < tables.bindings.length) := by
  obtain ⟨hsamplers, hbindings⟩ := length_bindAll run
  obtain ⟨hsamplers', hbindings'⟩ := length_ofModule m
  rw [hm] at hsamplers' hbindings'
  have hbinding := lt_usedSlots (List.mem_map_of_mem (f := (·.binding)) hs)
  have htexture := lt_usedSlots (List.mem_map_of_mem (f := (·.textureBinding)) hs)
  rw [hsamplers, hsamplers', hbindings, hbindings']
  omega

end SlotTables

/-! ## Modules of a session -/

namespace Session

open Engine (outline_activate outline_deactivate module?_outline)

variable {allowed : Session → Event → Prop} {s : Session}

/-- **Modules come from loading**, and stay what they are. -/
theorem module?_step (htables : s.engine.Tables) {event : Event} {i : Nat} {m : EffectModule}
    (h : (s.step event).engine.outline.module? i = some m) :
    s.engine.outline.module? i = some m ∨ ∃ m₀, event = .load m₀ ∧ m = m₀.reserveSlots := by
  by_cases hloads : event.loads = false
  · rw [(s.rests_step hloads).outline] at h
    exact Or.inl h
  · cases event with
    | init swapchain =>
      have hvacated : s.engine.vacated.outline.module? i = some m →
          s.engine.outline.module? i = some m :=
        Engine.vacated_induction (P := fun e ↦ e.outline.module? i = some m → _) id nofun
      rcases s.engine.init_cases swapchain with ⟨cause, d, -, hinit⟩ | ⟨b, d, -, hinit⟩ <;>
        exact Or.inl (hvacated (congrArg (fun r ↦ r.2.outline.module? i) hinit ▸ h))
    | reset => cases h
    | load m₀ =>
      replace h : (s.engine.load m₀).2.outline.module? i = some m := h
      rcases s.engine.load_cases m₀ with ⟨-, hload⟩ | ⟨-, hload⟩ <;> rw [hload] at h
      · exact Or.inl h
      · rw [outline_activate (htables.registered _).assets, Engine.module?_register] at h
        split at h
        · exact Or.inr ⟨m₀, rfl, (Option.some.inj h).symm⟩
        · exact Or.inl h
    | reload index =>
      replace h : (s.engine.reload index).2.outline.module? i = some m := h
      rcases htables.reload_cases index with ⟨-, hrun⟩ | ⟨effect, -, hrun⟩ <;> rw [hrun] at h
      · exact Or.inl h
      · rw [outline_activate (htables.deactivated index).assets, outline_deactivate] at h
        exact Or.inl h
    | unload index =>
      replace h : (s.engine.unload index).2.outline.module? i = some m := h
      rw [module?_outline, Engine.effect?_unload] at h
      split at h
      · cases h
      · exact Or.inl h
    | unloadAll => cases h
    | _ => exact absurd rfl hloads

theorem Reachable.reserveSlots_of_module? (hs : s.Reachable allowed) {i : Nat} {m : EffectModule}
    (h : s.engine.outline.module? i = some m) : m.reserveSlots = m := by
  induction hs with
  | start timing config => cases h
  | step hs _ ih =>
    rcases module?_step hs.tables h with h | ⟨m₀, -, rfl⟩
    · exact ih h
    · exact m₀.reserveSlots_reserveSlots

/-- **The counts of a loaded module cover its slots.** -/
theorem Reachable.reserved (hs : s.Reachable allowed) {i : Nat} {effect : Effect}
    (heffect : s.engine.effect? i = some effect) : effect.module.reserveSlots = effect.module := by
  refine hs.reserveSlots_of_module? (i := i) ?_
  rw [module?_outline, heffect]
  rfl

end Session

end EffectChain
