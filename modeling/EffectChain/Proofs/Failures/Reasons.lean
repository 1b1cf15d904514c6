import EffectChain.Proofs.Records.Realized
import EffectChain.Proofs.Recovery.Attempts

/-!
# Why building an effect fails

An action *fails for* a reason if, from every state with some property, every error that it returns
has that reason (`FailsFor`). What a step relies on is known of the states in which it runs: of the
assets that they are ready, and of what earlier steps returned that it serves the later ones. So an
error that would mean that something is missing is no reason for the whole.

For an effect whose module is valid and whose textures are created, two kinds of reasons are left
besides creations that fail: a sampler with a slot that the device does not have, the first of which
is reported, and a name to draw into that is none of a texture of the chain's own
(`ActivationFailure`, `failsFor_buildEffect`).
-/

namespace EffectChain

open Assets (Builds Ready)

/-! ## Actions that fail for a reason -/

/-- From every state with the property, the action fails for such a reason, if it fails. -/
def FailsFor {σ ε α : Type} (inv : σ → Prop) (m : ExceptT ε (StateM σ) α) (reason : ε → Prop) :
    Prop :=
  ∀ s, inv s → ∀ e s', m s = (.error e, s') → reason e

namespace FailsFor

variable {σ ε α β : Type} {inv : σ → Prop} {m : ExceptT ε (StateM σ) α} {reason : ε → Prop}

theorem imp {reason' : ε → Prop} (h : FailsFor inv m reason)
    (himp : ∀ e, reason e → reason' e) : FailsFor inv m reason' :=
  fun s hs e s' run ↦ himp e (h s hs e s' run)

protected theorem pure (x : α) : FailsFor inv (pure x : ExceptT ε (StateM σ) α) reason :=
  nofun

protected theorem throw {e : ε} (h : reason e) :
    FailsFor inv (throw e : ExceptT ε (StateM σ) α) reason := by
  intro s _ e' s' run
  cases run
  exact h

/-- The second step may rely on what the first one leaves behind when it succeeds. -/
protected theorem bind (inv' : α → σ → Prop) {k : α → ExceptT ε (StateM σ) β}
    (hm : FailsFor inv m reason)
    (hinto : ∀ {s s' x}, inv s → m s = (.ok x, s') → inv' x s')
    (hk : ∀ x, FailsFor (inv' x) (k x) reason) : FailsFor inv (m >>= k) reason := by
  intro s hs e s' run
  rw [run_bind] at run
  rcases hfirst : m s with ⟨e₁ | x, s₁⟩ <;> rw [hfirst] at run
  · cases run
    exact hm s hs _ _ hfirst
  · exact hk x s₁ (hinto hs hfirst) e s' run

theorem seq {k : α → ExceptT ε (StateM σ) β} (hm : FailsFor inv m reason)
    (hk : ∀ x, FailsFor (fun _ ↦ True) (k x) reason) : FailsFor inv (m >>= k) reason :=
  .bind (fun _ _ ↦ True) hm (fun _ _ ↦ trivial) hk

theorem bind_get {k : σ → ExceptT ε (StateM σ) β}
    (hk : ∀ x, inv x → FailsFor (· = x) (k x) reason) : FailsFor inv (get >>= k) reason :=
  fun s hs e s' run ↦ hk s hs s rfl e s' run

protected theorem modify (f : σ → σ) :
    FailsFor inv (modify f : ExceptT ε (StateM σ) PUnit) reason := by
  intro s _ e s' run
  replace run : (Except.ok PUnit.unit, f s) = (Except.error e, s') := run
  cases run

/-- What is released after a failure has nothing to do with the reason. -/
protected theorem keeping [HasDevice σ] {refs : List ObjectRef} (h : FailsFor inv m reason) :
    FailsFor inv (keeping refs m) reason := by
  intro s hs e s' run
  rw [run_keeping] at run
  rcases hm : m s with ⟨e₁ | x, s₁⟩ <;> rw [hm] at run <;> cases run
  exact h s hs _ _ hm

protected theorem named {inv : Device → Prop} {m : DeviceM α} {wrap : DeviceError → ε}
    (h : ∀ cause, reason (wrap cause)) : FailsFor inv (m.named wrap) reason := by
  intro d _ e d' run
  rw [run_named] at run
  rcases hm : m d with ⟨cause | x, d₁⟩ <;> rw [hm] at run <;> cases run
  exact h cause

end FailsFor

/-! ## Reasons -/

namespace EngineError

def isCreation : EngineError → Bool
  | textureCreation .. | shaderViewCreation .. | renderTargetViewCreation .. | samplerCreation ..
  | blendStateCreation .. | depthStencilStateCreation .. | shaderCreation ..
  | constantBufferCreation .. | queryCreation .. => true
  | _ => false

/-- A sampler has a slot that the device does not have. -/
def isSlotLimit : EngineError → Bool
  | samplerSlotLimit .. | textureSlotLimit .. => true
  | _ => false

/-- A pass draws into what is not a texture of the chain's own. -/
def isTarget : EngineError → Bool
  | unknownRenderTarget .. | invalidRenderTarget .. => true
  | _ => false

end EngineError

/-- The device does not have one of the slots of the sampler. -/
def SamplerDecl.Beyond (s : SamplerDecl) : Prop :=
  maxSamplerSlots ≤ s.binding.toNat ∨ maxTextureSlots ≤ s.textureBinding.toNat

instance (s : SamplerDecl) : Decidable s.Beyond :=
  inferInstanceAs (Decidable (_ ∨ _))

/-- How that is reported: with the sampler if it is its own slot, and else with its texture. -/
def SamplerDecl.slotLimit (s : SamplerDecl) : EngineError :=
  if maxSamplerSlots ≤ s.binding.toNat then .samplerSlotLimit s.name s.binding
  else .textureSlotLimit s.textureName s.textureBinding

/-- What activation fails for if the module is valid and has these samplers. -/
inductive ActivationFailure (samplers : List SamplerDecl) : EngineError → Prop
  /-- A creation. -/
  | creation {e : EngineError} (h : e.isCreation) : ActivationFailure samplers e
  /-- The first sampler with a slot that the device does not have. -/
  | slotLimit {before after : List SamplerDecl} {s : SamplerDecl}
    (hsamplers : samplers = before ++ s :: after) (hbefore : ∀ s' ∈ before, ¬ s'.Beyond)
    (hs : s.Beyond) : ActivationFailure samplers s.slotLimit
  /-- What a pass draws into, if the device has all slots. -/
  | target {e : EngineError} (hsamplers : ∀ s ∈ samplers, ¬ s.Beyond) (h : e.isTarget) :
    ActivationFailure samplers e

/-! ## Creations -/

open EngineError (isCreation)

theorem OwnedTexture.failsFor_create (t : TextureDecl) :
    FailsFor (fun _ ↦ True) (create t) (·.isCreation) := by
  rw [create]
  refine .seq (.named fun _ ↦ rfl) fun resource ↦ .keeping (.bind_get fun d _ ↦ ?_)
  refine .seq (.named fun _ ↦ rfl) fun linear ↦ .keeping ?_
  split
  · rw [pure_bind]
    exact .pure _
  · exact .seq (.named fun _ ↦ rfl) fun gamma ↦ .pure _

/-- **The textures of an effect fail for nothing but a creation.** -/
theorem failsFor_materialize (index : Nat) (table : List TableTexture) :
    FailsFor (fun _ ↦ True) (materialize index table) (·.isCreation) := by
  induction table with
  | nil => exact .pure _
  | cons t rest ih =>
    rw [materialize]
    split
    · exact .seq (OwnedTexture.failsFor_create t.decl) fun owned ↦
        .keeping (.seq ih fun table ↦ .pure _)
    · exact .seq ih fun table ↦ .pure _

/-- A texture that is there can be drawn into, unless a creation fails. -/
theorem OwnedTexture.failsFor_target (o : OwnedTexture) (name : String) (gamma : Bool) :
    FailsFor (fun d ↦ (d.textureDesc? o.resource).isSome) (o.target name gamma)
      (·.isCreation) := by
  rw [target]
  split
  · exact .pure _
  · refine .bind_get fun d hd ↦ ?_
    split
    · rename_i hnone
      rw [hnone] at hd
      cases hd
    · exact .seq (.named fun _ ↦ rfl) fun view ↦ .seq (.modify _) fun _ ↦ .pure _

section Building

variable {a a' : Assets} {fs : List Face} {reason : EngineError → Prop}

theorem FailsFor.onDevice {α : Type} {inv : Assets → Prop} (inv' : Device → Prop)
    {m : ExceptT EngineError (StateM Device) α} (h : FailsFor inv' m reason)
    (hinto : ∀ a, inv a → inv' a.device) : FailsFor inv (BuildM.onDevice m) reason := by
  intro a ha e a' run
  rw [run_onDevice] at run
  rcases hm : m a.device with ⟨e₁ | x, d⟩ <;> rw [hm] at run <;> cases run
  exact h a.device (hinto a ha) _ _ hm

open CachedDescriptor (cache) in
theorem FailsFor.state {δ : Type} {kind : ObjectKind} [DecidableEq δ] [CachedDescriptor δ kind]
    {inv : Assets → Prop} {desc : δ} {wrap : DeviceError → EngineError}
    (h : ∀ cause, reason (wrap cause)) : FailsFor inv (BuildM.state desc wrap) reason := by
  intro a _ e a' run
  rw [run_state] at run
  rcases hreq : (cache a.states).request desc a.device with ⟨cause | x, c, d⟩ <;>
    rw [hreq] at run <;> cases run
  exact h cause

/-- Whatever building does, the assets stay ready for the next step. -/
theorem FailsFor.andThen {α β : Type} {m : BuildM α} {k : α → BuildM β}
    (hm : FailsFor (Ready fs) m reason) (hbuilds : Steady Builds m)
    (hk : ∀ x, FailsFor (Ready fs) (k x) reason) : FailsFor (Ready fs) (m >>= k) reason :=
  .bind (fun _ ↦ Ready fs) hm (fun ha run ↦ ha.builds (hbuilds.run run)) hk

theorem failsFor_createShaders {inv : Assets → Prop} (entryPoints : List EntryPoint) :
    FailsFor inv (createShaders entryPoints) (·.isCreation) := by
  induction entryPoints generalizing inv with
  | nil => exact .pure _
  | cons entry rest ih =>
    rw [createShaders]
    refine .seq (.onDevice (fun _ ↦ True) (.named fun _ ↦ rfl) fun _ _ ↦ trivial)
      fun shader ↦ .keeping ?_
    exact .seq ih fun shaders ↦ .pure _

theorem failsFor_createUniformBuffer {inv : Assets → Prop} (e : Effect) :
    FailsFor inv (createUniformBuffer e) (·.isCreation) := by
  rw [createUniformBuffer]
  split
  · exact .pure _
  · exact .seq (.onDevice (fun _ ↦ True) (.named fun _ ↦ rfl) fun _ _ ↦ trivial)
      fun buffer ↦ .pure _

/-! ## Slot tables -/

namespace SlotTables

variable {tables tables' : SlotTables}

/-- A sampler that reads something can be bound if the device has its slots. -/
theorem failsFor_bind (tables : SlotTables) {s : SamplerDecl}
    (hserved : ∀ a, Ready fs a → (slotOf a s).isSome) :
    FailsFor (Ready fs) (tables.bind s) fun e ↦
      e.isCreation ∨ s.Beyond ∧ e = s.slotLimit := by
  rw [SlotTables.bind]
  dsimp only
  split
  · rename_i hsampler
    rw [throw_bind]
    exact .throw (Or.inr ⟨Or.inl hsampler, by rw [SamplerDecl.slotLimit, if_pos hsampler]⟩)
  · rename_i hsampler
    split
    · rename_i htexture
      rw [throw_bind]
      exact .throw (Or.inr ⟨Or.inr htexture, by rw [SamplerDecl.slotLimit, if_neg hsampler]⟩)
    · refine .bind_get fun a ha ↦ ?_
      split
      · rename_i hnone
        have hsome := hserved a ha
        rw [hnone] at hsome
        cases hsome
      · split
        · exact .pure _
        · exact .seq (.state fun _ ↦ Or.inl rfl) fun state ↦ .pure _

theorem not_beyond_of_bind {s : SamplerDecl} (run : tables.bind s a = (.ok tables', a')) :
    ¬ s.Beyond := by
  rcases tables.bind_cases s a with ⟨-, e, hrun⟩ | ⟨slot, hbinds, -⟩
  · cases hrun.symm.trans run
  · rintro (hsampler | htexture)
    · exact absurd hbinds.sampler (Nat.not_lt.mpr hsampler)
    · exact absurd hbinds.texture (Nat.not_lt.mpr htexture)

theorem not_beyond_of_bindAll {samplers : List SamplerDecl}
    (run : tables.bindAll samplers a = (.ok tables', a')) : ∀ s ∈ samplers, ¬ s.Beyond := by
  induction samplers generalizing tables a with
  | nil => exact List.forall_mem_nil _
  | cons s rest ih =>
    obtain ⟨tables₁, a₁, hfirst, hrest⟩ := bind_eq_ok run
    exact List.forall_mem_cons.mpr ⟨not_beyond_of_bind hfirst, ih hrest⟩

/-- **The first sampler that cannot be bound is reported.** -/
theorem failsFor_bindAll (tables : SlotTables) {samplers : List SamplerDecl}
    (hserved : ∀ s ∈ samplers, ∀ a, Ready fs a → (slotOf a s).isSome) :
    FailsFor (Ready fs) (tables.bindAll samplers) fun e ↦
      e.isCreation ∨ ∃ before s after, samplers = before ++ s :: after ∧
        (∀ s' ∈ before, ¬ s'.Beyond) ∧ s.Beyond ∧ e = s.slotLimit := by
  induction samplers generalizing tables with
  | nil => exact .pure _
  | cons s rest ih =>
    obtain ⟨hfirst, hrest⟩ := List.forall_mem_cons.mp hserved
    refine .bind (fun _ a ↦ Ready fs a ∧ ¬ s.Beyond) ?_
      (fun ha run ↦ ⟨ha.builds ((builds_bind tables s).run run), not_beyond_of_bind run⟩) ?_
    · refine (failsFor_bind tables hfirst).imp fun e he ↦ he.imp_right ?_
      rintro ⟨hs, heq⟩
      exact ⟨[], s, rest, rfl, List.forall_mem_nil _, hs, heq⟩
    · rintro tables₁ a ⟨ha, hs⟩ e a' run
      refine (ih tables₁ hrest a ha e a' run).imp_right ?_
      rintro ⟨before, s', after, rfl, hbefore, hs'⟩
      exact ⟨s :: before, s', after, rfl, List.forall_mem_cons.mpr ⟨hs, hbefore⟩, hs'⟩

end SlotTables

/-! ## Passes -/

/-- Reasons for which building a pass fails. -/
def EngineError.isPass (e : EngineError) : Prop := e.isCreation ∨ e.isTarget

namespace PassTarget

theorem failsFor_ofTexture (place : PassPlace) (gamma : Bool) (name : String) :
    FailsFor (Ready fs) (ofTexture place gamma name) EngineError.isPass := by
  rw [ofTexture]
  refine .bind_get fun a ha ↦ ?_
  split
  · exact .throw (Or.inr rfl)
  · rename_i t hfind
    dsimp only
    split
    · rw [throw_bind]
      exact .throw (Or.inr rfl)
    · split
      · exact .throw (Or.inr rfl)
      · rename_i o howned
        have hstands : ∀ a', a' = a → (a'.device.textureDesc? o.resource).isSome := by
          rintro _ rfl
          exact ha.stands t (Assets.mem_of_texture? hfind).1 o howned
        refine .seq (.onDevice _ ((o.failsFor_target name gamma).imp fun _ ↦ Or.inl) hstands) ?_
        rintro ⟨view, o'⟩
        exact .seq (.modify _) fun _ ↦ .bind_get fun _ _ ↦ .pure _

theorem failsFor_ofTextures (place : PassPlace) (gamma : Bool) (names : List String) :
    FailsFor (Ready fs) (ofTextures place gamma names) EngineError.isPass := by
  induction names with
  | nil => exact .pure _
  | cons name rest ih =>
    exact (failsFor_ofTexture place gamma name).andThen (builds_ofTexture place gamma name)
      fun target ↦ .andThen ih (builds_ofTextures place gamma rest) fun targets ↦ .pure _

theorem failsFor_ofPass (scene : Scene) (place : PassPlace) (p : PassDecl) :
    FailsFor (Ready fs) (ofPass scene place p) EngineError.isPass := by
  rw [ofPass]
  split
  · exact .pure _
  · exact failsFor_ofTextures place p.gammaWrite p.targetNames

end PassTarget

/-- There are shaders for the pass, and it has no more targets than there are slots. -/
structure EffectObjects.Serves (objects : EffectObjects) (p : PassDecl) : Prop where
  /-- It finds its vertex shader. -/
  vertex : (objects.shader? p.vertexEntry).isSome
  /-- It finds its pixel shader. -/
  pixel : (objects.shader? p.pixelEntry).isSome
  /-- Its targets have slots. -/
  targets : p.targetNames.length ≤ maxRenderTargets

theorem failsFor_passShader {inv : Assets → Prop} {objects : EffectObjects} {place : PassPlace}
    {name : String} (h : (objects.shader? name).isSome) :
    FailsFor inv (passShader objects place name) reason := by
  obtain ⟨shader, hshader⟩ := Option.isSome_iff_exists.mp h
  rw [passShader, hshader]
  exact .pure _

theorem failsFor_buildPass (scene : Scene) {objects : EffectObjects} (bindings : List ViewSlot)
    (place : PassPlace) {p : PassDecl} (h : objects.Serves p) :
    FailsFor (Ready fs) (buildPass scene objects bindings place p) EngineError.isPass := by
  rw [buildPass]
  refine (failsFor_passShader h.vertex).andThen (builds_passShader _ _ _) fun vertexShader ↦ ?_
  refine (failsFor_passShader h.pixel).andThen (builds_passShader _ _ _) fun pixelShader ↦ ?_
  dsimp only
  rw [if_neg (Nat.not_lt.mpr h.targets)]
  refine (PassTarget.failsFor_ofPass scene place p).andThen (PassTarget.builds_ofPass _ _ _)
    fun targets ↦ ?_
  refine .seq (.state fun _ ↦ Or.inl rfl) fun blend ↦ ?_
  refine .seq (.state fun _ ↦ Or.inl rfl) fun depthStencil ↦ ?_
  exact .bind_get fun _ _ ↦ .pure _

theorem failsFor_buildPasses (scene : Scene) {objects : EffectObjects} (bindings : List ViewSlot)
    (technique : String) (number : Nat) {passes : List PassDecl}
    (h : ∀ p ∈ passes, objects.Serves p) :
    FailsFor (Ready fs) (buildPasses scene objects bindings technique number passes)
      EngineError.isPass := by
  induction passes generalizing number with
  | nil => exact .pure _
  | cons p rest ih =>
    obtain ⟨hfirst, hrest⟩ := List.forall_mem_cons.mp h
    exact (failsFor_buildPass scene bindings _ hfirst).andThen (builds_buildPass _ _ _ _ _)
      fun record ↦ .seq (ih (number + 1) hrest) fun records ↦ .pure _

/-! ## Techniques and effects -/

theorem failsFor_buildTechnique (scene : Scene) {objects : EffectObjects} (tables : SlotTables)
    {t : Technique} (h : ∀ p ∈ t.passes, objects.Serves p) :
    FailsFor (Ready fs) (buildTechnique scene objects tables t) EngineError.isPass := by
  rw [buildTechnique]
  refine FailsFor.andThen
    (.onDevice (fun _ ↦ True) (.named fun _ ↦ Or.inl rfl) fun _ _ ↦ trivial)
    (builds_onDevice builds_timer.named) fun timer ↦ .keeping ?_
  exact .seq (failsFor_buildPasses scene _ _ _ h) fun passes ↦ .pure _

theorem failsFor_buildTechniques (scene : Scene) {objects : EffectObjects} (tables : SlotTables)
    {index : Nat} {techniques : List Technique}
    (h : ∀ t ∈ techniques, t.effect = index → ∀ p ∈ t.passes, objects.Serves p) :
    FailsFor (Ready fs) (buildTechniques scene objects tables index techniques)
      EngineError.isPass := by
  induction techniques with
  | nil => exact .pure _
  | cons t rest ih =>
    obtain ⟨hfirst, hrest⟩ := List.forall_mem_cons.mp h
    rw [buildTechniques]
    split
    · rename_i hindex
      exact (failsFor_buildTechnique scene tables (hfirst hindex)).andThen
        (builds_buildTechnique _ _ _ _) fun state ↦
          .keeping (.seq (ih hrest) fun techniques ↦ .pure _)
    · exact .seq (ih hrest) fun techniques ↦ .pure _

theorem names_of_createShaders {entryPoints : List EntryPoint}
    {shaders : List (String × Handle .shader)}
    (run : createShaders entryPoints a = (.ok shaders, a')) :
    shaders.map (·.1) = entryPoints.map (·.name) :=
  map_eq_of_forall₂ ((createShaders_eq_ok run).imp fun _ _ h ↦ h.1)

theorem EffectObjects.serves_of_validate {m : EffectModule} (hvalidate : m.validate = .ok ())
    {objects : EffectObjects} (hnames : objects.shaders.map (·.1) = m.entryPoints.map (·.name))
    {t : TechniqueDecl} (ht : t ∈ m.techniques) {p : PassDecl} (hp : p ∈ t.passes) :
    objects.Serves p := by
  have hserves {stage : ShaderStage} {name : String} (h : m.hasEntryPoint stage name) :
      (objects.shader? name).isSome := by
    refine isSome_shader? (hnames ▸ ?_)
    obtain ⟨entry, hfind, -⟩ := (Option.any_eq_true _ _).mp h
    exact List.mem_map.mpr ⟨entry, List.mem_of_find?_eq_some hfind,
      by simpa using List.find?_some hfind⟩
  obtain ⟨hvertex, hpixel⟩ := EffectModule.hasEntryPoint_of_validate hvalidate ht hp
  exact ⟨hserves hvertex, hserves hpixel,
    EffectModule.length_targetNames_of_validate hvalidate ht hp⟩

/-- **Building an effect fails for three reasons**, if its module is valid, its samplers read
something and its techniques are those of the module. -/
theorem failsFor_buildEffect (scene : Scene) {index : Nat} {e : Effect}
    {techniques : List Technique} (hvalidate : e.module.validate = .ok ())
    (hserved : ∀ s ∈ e.module.samplers, ∀ a, Ready fs a → (SlotTables.slotOf a s).isSome)
    (htechniques : ∀ t ∈ techniques, t.effect = index →
      ∃ decl ∈ e.module.techniques, t.passes = decl.passes) :
    FailsFor (Ready fs) (buildEffect scene index e techniques)
      (ActivationFailure e.module.samplers) := by
  rw [buildEffect]
  refine .bind
    (fun shaders a ↦ Ready fs a ∧ shaders.map (·.1) = e.module.entryPoints.map (·.name))
    ((failsFor_createShaders _).imp fun _ ↦ .creation)
    (fun ha run ↦ ⟨ha.builds ((builds_createShaders _).run run), names_of_createShaders run⟩) ?_
  rintro shaders a ⟨ha, hnames⟩
  refine FailsFor.keeping (?_ : FailsFor (Ready fs) _ _) a ha
  refine ((failsFor_createUniformBuffer e).imp fun _ ↦ .creation).andThen
    (builds_createUniformBuffer e) fun uniformBuffer ↦ .keeping ?_
  -- the module was found valid, so every pass has the shaders that it asks for
  have hserves : ∀ t ∈ techniques, t.effect = index → ∀ p ∈ t.passes,
      EffectObjects.Serves { shaders, uniformBuffer } p := by
    intro t ht hindex p hp
    obtain ⟨decl, hdecl, hpasses⟩ := htechniques t ht hindex
    exact EffectObjects.serves_of_validate hvalidate hnames hdecl (hpasses ▸ hp)
  refine .bind (fun _ a ↦ Ready fs a ∧ ∀ s ∈ e.module.samplers, ¬ s.Beyond) ?_
    (fun ha run ↦ ⟨ha.builds ((SlotTables.builds_bindAll _ _).run run),
      SlotTables.not_beyond_of_bindAll run⟩) ?_
  · refine (SlotTables.failsFor_bindAll _ hserved).imp fun cause hcause ↦ ?_
    rcases hcause with hcreation | ⟨before, s, after, hsplit, hbefore, hs, rfl⟩
    · exact .creation hcreation
    · exact .slotLimit hsplit hbefore hs
  · rintro tables a ⟨ha, hsamplers⟩
    refine FailsFor.seq (?_ : FailsFor (Ready fs) _ _) (fun techniques ↦ .pure _) a ha
    exact (failsFor_buildTechniques scene tables hserves).imp fun cause hcause ↦
      hcause.elim .creation (.target hsamplers)

end Building

end EffectChain
