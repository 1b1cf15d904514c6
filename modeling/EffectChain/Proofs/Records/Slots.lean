import EffectChain.Proofs.Failures.Session
import EffectChain.Proofs.Records.Realized

/-!
# Slot tables bind the samplers

One walk over the samplers of an effect fills two tables, with opposite rules for a slot that
several samplers share: the first one sets the state, the last one sets the texture. Both rules come
down to what a write does to its own slot and to the others, so the lemmas here split the samplers
at the one in question. Those on one side of it leave its slot alone, by assumption or because the
slot is taken.

The statement goes through to the device: a slot holds a state that is found with the fields of its
sampler (`SamplerDesc.Samples`), although effects share states, and a view that is found as one of
the texture of the name (`ViewSlot.Reads`), although the texture may have been declared by another
effect.
-/

namespace EffectChain

namespace SlotTables

variable {a a' : Assets} {tables tables' : SlotTables}

/-! ## First come, first served -/

section Samplers

variable {table : List (Option SamplerDesc)}

theorem samplerDescs_append (table : List (Option SamplerDesc)) (before after : List SamplerDecl) :
    samplerDescs table (before ++ after) = samplerDescs (samplerDescs table before) after :=
  List.foldl_append

theorem samplerDescs_cons (table : List (Option SamplerDesc)) (s : SamplerDecl)
    (rest : List SamplerDecl) :
    samplerDescs table (s :: rest) = samplerDescs
      (if (table[s.binding.toNat]?.join).isSome then table
      else table.set s.binding.toNat (some (SamplerDesc.ofDecl s))) rest := rfl

theorem length_samplerDescs (table : List (Option SamplerDesc)) (samplers : List SamplerDecl) :
    (samplerDescs table samplers).length = table.length := by
  induction samplers generalizing table with
  | nil => rfl
  | cons s rest ih =>
    rw [samplerDescs_cons, ih]
    split
    · rfl
    · exact List.length_set

theorem getElem?_samplerDescs_of_ne {i : Nat} {samplers : List SamplerDecl}
    (h : ∀ s ∈ samplers, s.binding.toNat ≠ i) :
    (samplerDescs table samplers)[i]? = table[i]? := by
  induction samplers generalizing table with
  | nil => rfl
  | cons s rest ih =>
    obtain ⟨hs, hrest⟩ := List.forall_mem_cons.mp h
    rw [samplerDescs_cons, ih hrest]
    split
    · rfl
    · exact List.getElem?_set_ne hs

theorem getElem?_samplerDescs_of_taken {i : Nat} {desc : SamplerDesc}
    (h : table[i]? = some (some desc)) (samplers : List SamplerDecl) :
    (samplerDescs table samplers)[i]? = some (some desc) := by
  induction samplers generalizing table with
  | nil => exact h
  | cons s rest ih =>
    rw [samplerDescs_cons]
    refine ih ?_
    split
    · exact h
    · rename_i hfree
      have hne : s.binding.toNat ≠ i := by
        rintro rfl
        exact hfree (by rw [h]; rfl)
      rwa [List.getElem?_set_ne hne]

/-- **The first sampler of a slot sets its descriptor.** -/
theorem getElem?_samplerDescs {n : Nat} {before after : List SamplerDecl} {s : SamplerDecl}
    (hs : s.binding.toNat < n) (hbefore : ∀ s' ∈ before, s'.binding ≠ s.binding) :
    (samplerDescs (List.replicate n none) (before ++ s :: after))[s.binding.toNat]?
      = some (some (SamplerDesc.ofDecl s)) := by
  have hempty : (samplerDescs (List.replicate n none) before)[s.binding.toNat]? = some none := by
    rw [getElem?_samplerDescs_of_ne fun s' hs' heq ↦ hbefore s' hs' (UInt32.toNat_inj.mp heq)]
    exact List.getElem?_replicate_of_lt hs
  rw [samplerDescs_append, samplerDescs_cons, hempty, if_neg (by simp)]
  refine getElem?_samplerDescs_of_taken (List.getElem?_set_self ?_) after
  rw [length_samplerDescs, List.length_replicate]
  exact hs

end Samplers

/-! ## Last come -/

section Textures

variable {table : List ViewSlot}

theorem readSlots_append (a : Assets) (table : List ViewSlot) (before after : List SamplerDecl) :
    readSlots a table (before ++ after) = readSlots a (readSlots a table before) after :=
  List.foldl_append

theorem readSlots_cons (a : Assets) (table : List ViewSlot) (s : SamplerDecl)
    (rest : List SamplerDecl) :
    readSlots a table (s :: rest)
      = readSlots a (table.set s.textureBinding.toNat ((slotOf a s).getD .empty)) rest := rfl

theorem length_readSlots (a : Assets) (table : List ViewSlot) (samplers : List SamplerDecl) :
    (readSlots a table samplers).length = table.length := by
  induction samplers generalizing table with
  | nil => rfl
  | cons s rest ih => rw [readSlots_cons, ih, List.length_set]

theorem getElem?_readSlots_of_ne {j : Nat} {samplers : List SamplerDecl}
    (h : ∀ s ∈ samplers, s.textureBinding.toNat ≠ j) :
    (readSlots a table samplers)[j]? = table[j]? := by
  induction samplers generalizing table with
  | nil => rfl
  | cons s rest ih =>
    obtain ⟨hs, hrest⟩ := List.forall_mem_cons.mp h
    rw [readSlots_cons, ih hrest, List.getElem?_set_ne hs]

/-- **The last sampler of a slot sets what is read there.** -/
theorem getElem?_readSlots {before after : List SamplerDecl} {s : SamplerDecl} {slot : ViewSlot}
    (hs : s.textureBinding.toNat < table.length) (hslot : slotOf a s = some slot)
    (hafter : ∀ s' ∈ after, s'.textureBinding ≠ s.textureBinding) :
    (readSlots a table (before ++ s :: after))[s.textureBinding.toNat]? = some slot := by
  rw [readSlots_append, readSlots_cons,
    getElem?_readSlots_of_ne fun s' hs' heq ↦ hafter s' hs' (UInt32.toNat_inj.mp heq), hslot,
    Option.getD_some]
  refine List.getElem?_set_self ?_
  rwa [length_readSlots]

end Textures

/-! ## Tables of a module -/

theorem Of.getElem? {d : Device} {states : List (Option (Handle .sampler))}
    {descs : List (Option SamplerDesc)} (h : Of d states descs) (i : Nat) :
    Option.Rel (Option.Rel fun state desc ↦ d.Made state desc) states[i]? descs[i]? := by
  induction h generalizing i with
  | nil => exact .none
  | cons hfirst _ ih =>
    cases i with
    | zero => exact .some hfirst
    | succ i => exact ih i

namespace Implements

variable {m : EffectModule}

theorem length_samplers (h : tables.Implements a m) :
    tables.samplers.length = (ofModule m).samplers.length := by
  rw [h.samplers.length_eq, length_samplerDescs, ofModule, List.length_replicate,
    List.length_replicate]

theorem length_bindings (h : tables.Implements a m) :
    tables.bindings.length = (ofModule m).bindings.length := by
  rw [h.bindings, length_readSlots]

theorem getElem?_samplers_of_ne (h : tables.Implements a m) {i : Nat}
    (hi : i < tables.samplers.length) (hne : ∀ s ∈ m.samplers, s.binding.toNat ≠ i) :
    tables.samplers[i]? = some none := by
  have hrel := h.samplers.getElem? i
  rw [h.length_samplers, ofModule, List.length_replicate] at hi
  rw [getElem?_samplerDescs_of_ne hne, List.getElem?_replicate_of_lt hi] at hrel
  generalize tables.samplers[i]? = state at hrel ⊢
  rcases hrel with hrel | _
  rcases hrel with _ | _
  rfl

/-- A sampler slot has a state for the first sampler that is declared for it. -/
theorem exists_getElem?_samplers (h : tables.Implements a m) {before after : List SamplerDecl}
    {s : SamplerDecl} (hsamplers : m.samplers = before ++ s :: after)
    (hs : s.binding.toNat < tables.samplers.length)
    (hbefore : ∀ s' ∈ before, s'.binding ≠ s.binding) :
    ∃ x, tables.samplers[s.binding.toNat]? = some (some x) ∧
      a.device.Made x (SamplerDesc.ofDecl s) := by
  have hrel := h.samplers.getElem? s.binding.toNat
  rw [h.length_samplers, ofModule, List.length_replicate] at hs
  rw [hsamplers, getElem?_samplerDescs hs hbefore] at hrel
  generalize tables.samplers[s.binding.toNat]? = state at hrel ⊢
  rcases hrel with hrel | _
  rcases hrel with hmade | _
  exact ⟨_, rfl, hmade⟩

theorem getElem?_bindings_of_ne (h : tables.Implements a m) {j : Nat}
    (hj : j < tables.bindings.length) (hne : ∀ s ∈ m.samplers, s.textureBinding.toNat ≠ j) :
    tables.bindings[j]? = some .empty := by
  rw [h.length_bindings, ofModule, List.length_replicate] at hj
  rw [h.bindings, getElem?_readSlots_of_ne hne]
  exact List.getElem?_replicate_of_lt hj

/-- A texture slot has what is read by the last sampler that is declared for it. -/
theorem getElem?_bindings (h : tables.Implements a m) {before after : List SamplerDecl}
    {s : SamplerDecl} {slot : ViewSlot} (hsamplers : m.samplers = before ++ s :: after)
    (hs : s.textureBinding.toNat < tables.bindings.length) (hslot : slotOf a s = some slot)
    (hafter : ∀ s' ∈ after, s'.textureBinding ≠ s.textureBinding) :
    tables.bindings[s.textureBinding.toNat]? = some slot := by
  rw [h.bindings, hsamplers]
  refine getElem?_readSlots ?_ hslot hafter
  rwa [h.bindings, length_readSlots] at hs

end Implements

theorem isSome_slotOf_of_bindAll {samplers : List SamplerDecl} (hs : a.Sound)
    (run : tables.bindAll samplers a = (.ok tables', a')) :
    ∀ s ∈ samplers, (slotOf a' s).isSome := by
  induction samplers generalizing tables a with
  | nil => exact List.forall_mem_nil _
  | cons s rest ih =>
    have hbuilds := (builds_bindAll tables (s :: rest)).run run
    obtain ⟨tables₁, a₁, hfirst, hrest⟩ := bind_eq_ok run
    obtain ⟨-, hs₁⟩ := ((builds_bind tables s).run hfirst).toExtends hs
    refine List.forall_mem_cons.mpr ⟨?_, ih hs₁ hrest⟩
    rcases tables.bind_cases s a with ⟨-, e, hrun⟩ | ⟨slot, hbinds, -⟩
    · cases hrun.symm.trans hfirst
    · rw [hbuilds.slotOf hs, hbinds.slot]
      rfl

end SlotTables

/-! ## What a slot holds -/

/-- The descriptor has the fields of a sampler. Numbers agree bit for bit. -/
structure SamplerDesc.Samples (s : SamplerDecl) (desc : SamplerDesc) : Prop where
  /-- The filter. -/
  filter : desc.filter = s.filter
  /-- The addressing in all directions. -/
  address : desc.addressU = s.addressU ∧ desc.addressV = s.addressV ∧ desc.addressW = s.addressW
  /-- The bias and the limits of the levels. -/
  levels : desc.lodBias.bits = s.lodBias.bits ∧ desc.minLod.bits = s.minLod.bits ∧
    desc.maxLod.bits = s.maxLod.bits

theorem SamplerDesc.samples_ofDecl (s : SamplerDecl) : (ofDecl s).Samples s where
  filter := rfl
  address := ⟨rfl, rfl, rfl⟩
  levels := ⟨rfl, rfl, rfl⟩

/-- The slot is what a sampler reads: the texture in the table under the name that it declares. -/
inductive ViewSlot.Reads (a : Assets) (s : SamplerDecl) : ViewSlot → Prop
  /-- It stands for the frame, read as the sampler reads it. -/
  | backbuffer {t : TableTexture} (found : a.texture? s.textureName = some t)
    (reference : t.decl.reference = .backBuffer) : Reads a s (.backbuffer s.gamma)
  /-- It stands for the depth of the scene. -/
  | depth {t : TableTexture} (found : a.texture? s.textureName = some t)
    (reference : t.decl.reference = .depthBuffer) : Reads a s .depth
  /-- It is a texture of the chain's own, read through the view for the sampler. -/
  | view {t : TableTexture} {o : OwnedTexture} (found : a.texture? s.textureName = some t)
    (reference : t.decl.reference = .owned) (owned : t.owned = some o)
    (stored : a.device.get? (o.views.pick s.gamma)
      = some ⟨o.resource, t.decl.viewFormat s.gamma⟩) : Reads a s (.view (o.views.pick s.gamma))

theorem ViewSlot.reads_of_slotOf {a : Assets} (hs : a.Sound) (hl : a.Live) {s : SamplerDecl}
    {slot : ViewSlot} (h : SlotTables.slotOf a s = some slot) : slot.Reads a s := by
  obtain ⟨t, hfind, hread⟩ := Option.bind_eq_some_iff.mp h
  split at hread
  · rename_i hreference
    cases hread
    exact .backbuffer hfind hreference
  · rename_i hreference
    cases hread
    exact .depth hfind hreference
  · rename_i hreference
    obtain ⟨o, howned, rfl⟩ := Option.map_eq_some_iff.mp hread
    have hmem := (Assets.mem_of_texture? hfind).1
    have hlive := hl.owned hmem howned _ (o.mem_refs_of_view s.gamma)
    exact .view hfind hreference howned
      (((hs.owned t hmem o howned).shown s.gamma).get? hlive fun heq ↦ heq)

/-- The slot tables of a technique bind the samplers of a module. -/
structure TechniqueState.Binds (a : Assets) (m : EffectModule) (state : TechniqueState) :
    Prop where
  /-- There are as many sampler slots as the module says or uses, within what the device has. -/
  samplerCount : state.samplers.length
    = min maxSamplerSlots (max m.samplerSlots.toNat (usedSlots (m.samplers.map (·.binding))))
  /-- So for the texture slots. -/
  textureCount : state.bindings.length
    = min maxTextureSlots
      (max m.textureSlots.toNat (usedSlots (m.samplers.map (·.textureBinding))))
  /-- A sampler slot that is not declared has no state. -/
  noSampler : ∀ i < state.samplers.length, (∀ s ∈ m.samplers, s.binding.toNat ≠ i) →
    state.samplers[i]? = some none
  /-- The first sampler of a slot sets its state. -/
  sampler : ∀ before s after, m.samplers = before ++ s :: after →
    (∀ s' ∈ before, s'.binding ≠ s.binding) → ∃ (h : Handle .sampler) (desc : SamplerDesc),
      state.samplers[s.binding.toNat]? = some (some h) ∧ a.device.get? h = some desc ∧
        desc.Samples s
  /-- A texture slot that is not declared is empty. -/
  noTexture : ∀ j < state.bindings.length, (∀ s ∈ m.samplers, s.textureBinding.toNat ≠ j) →
    state.bindings[j]? = some .empty
  /-- The last sampler of a slot sets what is read there. -/
  texture : ∀ before s after, m.samplers = before ++ s :: after →
    (∀ s' ∈ after, s'.textureBinding ≠ s.textureBinding) → ∃ slot,
      state.bindings[s.textureBinding.toNat]? = some slot ∧ slot.Reads a s

/-- **Tables that implement a module bind its samplers**, if the device has their slots. -/
theorem TechniqueState.binds_of_implements {a : Assets} (hs : a.Sound) (hl : a.Live)
    {m : EffectModule} {state : TechniqueState}
    (h : SlotTables.Implements a m.reserveSlots ⟨state.samplers, state.bindings⟩)
    (hlive : ∀ x, some x ∈ state.samplers → x.ref ∈ a.device.live)
    (hbeyond : ∀ s ∈ m.samplers, ¬ s.Beyond)
    (hreads : ∀ s ∈ m.samplers, (SlotTables.slotOf a s).isSome) : state.Binds a m := by
  obtain ⟨hroom, hroom'⟩ := SlotTables.length_ofModule m
  have hcount := h.length_samplers.trans hroom
  have hcount' := h.length_bindings.trans hroom'
  -- slots that a module uses are counted, and the count was not cut off
  have hrange : ∀ s ∈ m.samplers, s.binding.toNat < state.samplers.length ∧
      s.textureBinding.toNat < state.bindings.length := by
    intro s hmem
    have hs := hbeyond s hmem
    have hbinding := lt_usedSlots (List.mem_map_of_mem (f := (·.binding)) hmem)
    have htexture := lt_usedSlots (List.mem_map_of_mem (f := (·.textureBinding)) hmem)
    dsimp only at hcount hcount'
    rw [SamplerDecl.Beyond] at hs
    omega
  refine ⟨hcount, hcount', fun i hi hne ↦ h.getElem?_samplers_of_ne hi hne, ?_,
    fun j hj hne ↦ h.getElem?_bindings_of_ne hj hne, ?_⟩
  · intro before s after hsamplers hbefore
    have hmem : s ∈ m.samplers := by simp [hsamplers]
    obtain ⟨x, hx, hmade⟩ := h.exists_getElem?_samplers hsamplers (hrange s hmem).1 hbefore
    have hget := hmade.get? (hlive x (List.mem_of_getElem? hx)) fun heq ↦ heq
    exact ⟨x, _, hx, hget, SamplerDesc.samples_ofDecl s⟩
  · intro before s after hsamplers hafter
    have hmem : s ∈ m.samplers := by simp [hsamplers]
    obtain ⟨slot, hslot⟩ := Option.isSome_iff_exists.mp (hreads s hmem)
    exact ⟨slot, h.getElem?_bindings hsamplers (hrange s hmem).2 hslot hafter,
      ViewSlot.reads_of_slotOf hs hl hslot⟩

/-! ## Effects -/

namespace Engine

/-- The techniques of an index have slot tables that bind the samplers of a module. -/
def Binds (e : Engine) (index : Nat) (m : EffectModule) : Prop :=
  ∀ t ∈ e.techniques, t.effect = index → ∃ state, t.state = some state ∧
    state.Binds e.toAssets m

theorem isSome_slotOf_of_activate {e e' : Engine} {index : Nat} {effect : Effect}
    (hs : e.toAssets.Sound) (heffect : e.effect? index = some effect)
    (run : e.activate index = (.ok (), e')) :
    ∀ s ∈ effect.module.samplers, (SlotTables.slotOf e'.toAssets s).isSome := by
  obtain ⟨effect', textures, d, b, objects, heffect', -, htextures, -, hbuild, -⟩ :=
    activate_eq_ok run
  cases heffect.symm.trans heffect'
  obtain ⟨-, hs₀⟩ := extends_materialize htextures hs
  obtain ⟨tables, a₁, a₂, hbuilds, htables, htechniques⟩ := buildEffect_eq_ok hbuild
  obtain ⟨-, hs₁⟩ := hbuilds.toExtends hs₀
  obtain ⟨-, hs₂⟩ := ((SlotTables.builds_bindAll _ _).run htables).toExtends hs₁
  intro s hmem
  rw [((builds_buildTechniques _ _ _ _ _).run htechniques).slotOf hs₂ s]
  exact SlotTables.isSome_slotOf_of_bindAll hs₁ htables s hmem

/-- **A successful activation binds the samplers that the module declares.** -/
theorem ActivatedFrom.binds {d : Device} {e : Engine} {index : Nat} {m : EffectModule}
    (h : e.ActivatedFrom d index m.reserveSlots) : e.Binds index m := by
  obtain ⟨⟨-, htables, hsound, others, howns⟩, e₀, effect, hs, -, heffect, hm, run⟩ := h
  intro t ht hindex
  obtain ⟨effect', textures, d', b, objects, -, -, -, hb, -⟩ := activate_eq_ok run
  obtain ⟨state, hstate, himplements⟩ := exists_implements_activate hs heffect hb run ht hindex
  obtain ⟨b', -, hlive, -⟩ := hsound.live_iff htables howns ht hstate
  have hbeyond := not_beyond_of_activate heffect run
  have hreads := isSome_slotOf_of_activate hs heffect run
  have htables' := himplements.tables
  rw [hm] at hbeyond hreads htables'
  exact ⟨state, hstate, TechniqueState.binds_of_implements htables.assets howns.assets_live
    htables' hlive.samplers hbeyond hreads⟩

end Engine

/-! ## Sessions -/

namespace Session

/-- **Slot tables bind the samplers.** Whenever an effect is loaded or reloaded successfully, the
slot tables of its techniques are as long as its module says and uses, the first sampler of a slot
sets its state, and the last one what is read there. In a session with a swapchain, a valid module
fails for a slot limit exactly if a sampler asks for a slot that the device does not have, unless a
creation fails; the first such sampler is reported. -/
theorem Reachable.slot_tables {s : Session} (hs : s.Reachable Event.Lawful) :
    (∀ m index e, s.engine.load m = (.ok index, e) → e.Binds index m) ∧
    (∀ index e, s.engine.reload index = (.ok (), e) →
      ∃ effect, s.engine.effect? index = some effect ∧ e.Binds index effect.module) ∧
    (s.engine.backbuffer.isSome →
      (∀ m : EffectModule, m.validate = .ok () →
        (∀ cause, (s.engine.load m).1 = .error cause → cause.isCreation = false) →
        m.ReportsSlots (s.engine.load m).1) ∧
      ∀ index effect, s.engine.effect? index = some effect → effect.module.validate = .ok () →
        (∀ cause, (s.engine.reload index).1 = .error cause → cause.isCreation = false) →
        effect.module.ReportsSlots (s.engine.reload index).1) := by
  refine ⟨fun m index e run ↦ (hs.activated_load run).binds, fun index e run ↦ ?_,
    fun hb ↦ ⟨?_, ?_⟩⟩
  · obtain ⟨effect, heffect, hactivated⟩ := hs.activated_reload run
    rw [← hs.reserved heffect] at hactivated
    exact ⟨effect, heffect, hactivated.binds⟩
  · intro m
    exact (hs.activates_load hb m).reportsSlots
  · intro index effect heffect
    exact (hs.activates_reload hb heffect).reportsSlots

/-- Two samplers with the same slots: the state is that of the first one, and the slot reads the
frame as the second one does. In a slot that the device does not have, the second one is
reported. -/
theorem slot_tables_small :
    let near : SamplerDecl :=
      { name := "near", textureName := "canvas", binding := 2, textureBinding := 1
        filter := .minMagMipPoint }
    let far : SamplerDecl :=
      { name := "far", textureName := "frame", binding := 2, textureBinding := 1, gamma := true }
    let m : EffectModule :=
      { EffectModule.single "tint" [{ name := "canvas" }, .alias "frame" .backBuffer] [near, far] []
          with samplerSlots := 5 }
    let wide : EffectModule := { m with samplers := [near, { far with binding := 16 }] }
    small.engine.backbuffer.isSome ∧ m.validate = .ok () ∧ wide.validate = .ok () ∧
      (∃ e, small.engine.load m = (.ok 0, e) ∧ e.Binds 0 m ∧
        e.techniques.map (fun t ↦ t.state.map fun state ↦
            (state.samplers.map (·.bind e.device.get?), state.bindings))
          = [some ([none, none, some (SamplerDesc.ofDecl near), none, none],
              [.empty, .backbuffer true])]) ∧
      (small.engine.load wide).1 = .error (.samplerSlotLimit "far" 16) := by
  intro near far m wide
  have hs : small.Reachable Event.Lawful := .step (.step (.start {} {}) trivial) trivial
  have hb : small.engine.backbuffer.isSome := by decide +kernel
  have hwide : wide.validate = .ok () := by decide +kernel
  have hcreated : ∀ cause, (small.engine.load wide).1 = .error cause →
      cause.isCreation = false := by
    have hcause : (small.engine.load wide).1 = .error (.samplerSlotLimit "far" 16) := by
      decide +kernel
    rintro cause h
    cases hcause.symm.trans h
    rfl
  obtain ⟨hbinds, -, hlimits⟩ := Reachable.slot_tables hs
  refine ⟨hb, by decide +kernel, hwide, ?_, ?_⟩
  · have hsucceeds : (small.engine.load m).1.toOption = some 0 := by decide +kernel
    have htables : (small.engine.load m).2.techniques.map (fun t ↦ t.state.map fun state ↦
        (state.samplers.map (·.bind (small.engine.load m).2.device.get?), state.bindings))
        = [some ([none, none, some (SamplerDesc.ofDecl near), none, none],
          [.empty, .backbuffer true])] := by decide +kernel
    rcases hload : small.engine.load m with ⟨_ | index, e⟩ <;> rw [hload] at hsucceeds htables <;>
      cases hsucceeds
    exact ⟨e, rfl, hbinds m 0 e hload, htables⟩
  · -- what is evaluated above is no creation failure, and the theorem says which limit it is
    exact ((hlimits hb).1 wide hwide hcreated).first [near] { far with binding := 16 } [] rfl
      (by decide) (by decide)

end Session

end EffectChain
