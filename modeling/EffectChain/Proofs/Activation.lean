import EffectChain.Proofs.Touches

/-!
# What activation does to the assets

Each function of activation is a run of touches, whatever comes of it (`builds_buildEffect`); what
is known of single touches therefore holds of activation as a whole. Its loops run one function for
each element of a list, and what such a run returned is known from the run itself, which took place
between the first and the last state of the loop (`Assets.Between`).
-/

namespace EffectChain

open Assets (Builds)
open Relation (ReflTransGen)

/-! ## Whatever comes of it -/

theorem builds_onDevice {α : Type} {m : ExceptT EngineError (StateM Device) α}
    (h : Steady Device.Builds m) : Steady Builds (BuildM.onDevice m) := by
  intro a
  rw [run_onDevice]
  exact Builds.of_device (h a.device)

open CachedDescriptor (cache withCache) in
theorem builds_state {δ : Type} {kind : ObjectKind} [DecidableEq δ] [CachedDescriptor δ kind]
    [LawfulCache δ kind] (desc : δ) (wrap : DeviceError → EngineError) :
    Steady Builds (BuildM.state desc wrap) := by
  intro a
  obtain ⟨content, hcreate⟩ := LawfulCache.create_eq desc
  have hsteady : Steady Device.Builds (StateDescriptor.create desc) := by
    rw [hcreate]
    exact Device.builds_create (LawfulCache.kind_ne δ) _
  rw [run_state]
  rcases (cache a.states).request_cases desc a.device with
    ⟨h, -, hreq⟩ | ⟨h, d, hrun, hreq⟩ | ⟨e, d, hrun, hreq⟩ <;> rw [hreq]
  · exact ReflTransGen.single (.cache
      (LawfulCache.grows_withCache _ _ (List.Subset.refl _))
      fun hs ↦ LawfulCache.sound_withCache hs (LawfulCache.sound_cache hs))
  · -- the object is created, and joins the cache of its descriptor
    have hbuilds := Builds.of_device (hsteady.run hrun)
    exact hbuilds.tail (.cache (LawfulCache.grows_withCache _ _ (List.subset_cons_self _ _))
      fun hs ↦ LawfulCache.sound_withCache hs ((LawfulCache.sound_cache hs).insert hrun))
  · exact (Builds.of_device (hsteady.run hrun)).tail (.cache
      (LawfulCache.grows_withCache _ _ (List.Subset.refl _))
      fun hs ↦ LawfulCache.sound_withCache hs (LawfulCache.sound_cache hs))

theorem builds_release {refs : List ObjectRef} (h : ∀ r ∈ refs, r.kind.isPrivate) (a : Assets) :
    a.Builds (HasDevice.mapDevice (fun d ↦ d.release refs) a) :=
  ReflTransGen.single (.device (.release h))

theorem builds_createShaders (entryPoints : List EntryPoint) :
    Steady Builds (createShaders entryPoints) := by
  induction entryPoints with
  | nil => exact Steady.pure _
  | cons e rest ih =>
    rw [createShaders]
    refine Steady.bind (builds_onDevice (Device.builds_create (by decide) _).named) fun shader ↦ ?_
    exact Steady.keeping (Steady.bind ih fun shaders ↦ Steady.pure _)
      (builds_release (List.forall_mem_singleton.mpr rfl))

theorem builds_createUniformBuffer (e : Effect) : Steady Builds (createUniformBuffer e) := by
  rw [createUniformBuffer]
  split
  · exact Steady.pure _
  · exact Steady.bind (builds_onDevice (Device.builds_create (by decide) _).named) fun buffer ↦
      Steady.pure _

theorem SlotTables.builds_bind (tables : SlotTables) (s : SamplerDecl) :
    Steady Builds (tables.bind s) := by
  rw [SlotTables.bind]
  dsimp only
  split
  · rw [throw_bind]
    exact Steady.throw _
  · split
    · rw [throw_bind]
      exact Steady.throw _
    · refine Steady.bind Steady.get fun a ↦ ?_
      split
      · exact Steady.throw _
      · split
        · exact Steady.pure _
        · exact Steady.bind (builds_state _ _) fun state ↦ Steady.pure _

theorem SlotTables.builds_bindAll (tables : SlotTables) (samplers : List SamplerDecl) :
    Steady Builds (tables.bindAll samplers) := by
  induction samplers generalizing tables with
  | nil => exact Steady.pure _
  | cons s rest ih => exact Steady.bind (builds_bind tables s) fun tables ↦ ih tables

namespace PassTarget

theorem builds_ofTexture (place : PassPlace) (gamma : Bool) (name : String) :
    Steady Builds (ofTexture place gamma name) := by
  intro a
  rcases ofTexture_cases place gamma name a with
    ⟨-, e, hrun⟩ | ⟨t, o, hfound, ⟨e, d, hstep, hrun⟩ | ⟨view, o', d, hstep, hrun⟩⟩
  · rw [hrun]
  · rw [hrun]
    refine Builds.of_device ?_
    -- what fails is the creation of the view, if not the look-up before it
    rcases o.target_cases name gamma a.device with ⟨v, -, hcase⟩ | ⟨-, e', hcase⟩ |
      ⟨-, format, -, ⟨cause, e', d', hcreate, hcase⟩ | ⟨v, d', -, hcase⟩⟩ <;>
      cases hstep.symm.trans hcase
    · exact ReflTransGen.refl
    · exact (Device.builds_create (by decide) _).run hcreate
  · rw [hrun]
    exact ReflTransGen.single (.draw hfound.find hfound.owned hstep)

theorem builds_ofTextures (place : PassPlace) (gamma : Bool) (names : List String) :
    Steady Builds (ofTextures place gamma names) := by
  induction names with
  | nil => exact Steady.pure _
  | cons name rest ih =>
    exact Steady.bind (builds_ofTexture place gamma name) fun target ↦
      Steady.bind ih fun targets ↦ Steady.pure _

theorem builds_ofPass (scene : Scene) (place : PassPlace) (p : PassDecl) :
    Steady Builds (ofPass scene place p) := by
  rw [ofPass]
  split
  · exact Steady.pure _
  · exact builds_ofTextures place p.gammaWrite p.targetNames

end PassTarget

theorem builds_passShader (objects : EffectObjects) (place : PassPlace) (name : String) :
    Steady Builds (passShader objects place name) := by
  rw [passShader]
  split
  · exact Steady.pure _
  · exact Steady.throw _

theorem builds_buildPass (scene : Scene) (objects : EffectObjects) (bindings : List ViewSlot)
    (place : PassPlace) (p : PassDecl) :
    Steady Builds (buildPass scene objects bindings place p) := by
  rw [buildPass]
  refine Steady.bind (builds_passShader _ _ _) fun vertexShader ↦ ?_
  refine Steady.bind (builds_passShader _ _ _) fun pixelShader ↦ ?_
  dsimp only
  split
  · rw [throw_bind]
    exact Steady.throw _
  · refine Steady.bind (PassTarget.builds_ofPass _ _ _) fun targets ↦ ?_
    refine Steady.bind (builds_state _ _) fun blend ↦ ?_
    refine Steady.bind (builds_state _ _) fun depthStencil ↦ ?_
    exact Steady.bind Steady.get fun a ↦ Steady.pure _

theorem builds_buildPasses (scene : Scene) (objects : EffectObjects) (bindings : List ViewSlot)
    (technique : String) (number : Nat) (passes : List PassDecl) :
    Steady Builds (buildPasses scene objects bindings technique number passes) := by
  induction passes generalizing number with
  | nil => exact Steady.pure _
  | cons p rest ih =>
    exact Steady.bind (builds_buildPass _ _ _ _ _) fun record ↦
      Steady.bind (ih (number + 1)) fun records ↦ Steady.pure _

theorem builds_timer : Steady Device.Builds Timer.create := by
  have hrelease {q : Handle .query} (d : Device) : d.Builds (d.release [q.ref]) :=
    ReflTransGen.single (.release (List.forall_mem_singleton.mpr rfl))
  rw [Timer.create]
  refine Steady.bind (Device.builds_create (by decide) _) fun interval ↦ ?_
  refine Steady.keeping ?_ hrelease
  refine Steady.bind (Device.builds_create (by decide) _) fun opening ↦ ?_
  refine Steady.keeping ?_ hrelease
  exact Steady.bind (Device.builds_create (by decide) _) fun closing ↦ Steady.pure _

theorem builds_buildTechnique (scene : Scene) (objects : EffectObjects) (tables : SlotTables)
    (t : Technique) : Steady Builds (buildTechnique scene objects tables t) := by
  rw [buildTechnique]
  refine Steady.bind (builds_onDevice builds_timer.named) fun timer ↦ ?_
  refine Steady.keeping ?_ (builds_release (List.forall_mem_map.mpr fun _ _ ↦ rfl))
  exact Steady.bind (builds_buildPasses _ _ _ _ _ _) fun passes ↦ Steady.pure _

theorem builds_buildTechniques (scene : Scene) (objects : EffectObjects) (tables : SlotTables)
    (index : Nat) (techniques : List Technique) :
    Steady Builds (buildTechniques scene objects tables index techniques) := by
  induction techniques with
  | nil => exact Steady.pure _
  | cons t rest ih =>
    rw [buildTechniques]
    split
    · refine Steady.bind (builds_buildTechnique _ _ _ _) fun state ↦ ?_
      exact Steady.keeping (Steady.bind ih fun techniques ↦ Steady.pure _)
        (builds_release (List.forall_mem_map.mpr fun _ _ ↦ rfl))
    · exact Steady.bind ih fun techniques ↦ Steady.pure _

/-- **Activation only extends the assets**, whatever comes of it. -/
theorem builds_buildEffect (scene : Scene) (index : Nat) (e : Effect)
    (techniques : List Technique) : Steady Builds (buildEffect scene index e techniques) := by
  rw [buildEffect]
  refine Steady.bind (builds_createShaders _) fun shaders ↦ ?_
  refine Steady.keeping ?_ (builds_release (List.forall_mem_map.mpr fun _ _ ↦ rfl))
  refine Steady.bind (builds_createUniformBuffer _) fun uniformBuffer ↦ ?_
  refine Steady.keeping ?_ (builds_release (List.forall_mem_map.mpr fun _ _ ↦ rfl))
  refine Steady.bind (SlotTables.builds_bindAll _ _) fun tables ↦ ?_
  exact Steady.bind (builds_buildTechniques _ _ _ _ _) fun techniques ↦ Steady.pure _

/-! ## What the loops return -/

namespace Assets

/-- The action succeeded with a value, at some point between two states. -/
def Between (a a' : Assets) {α : Type} (m : BuildM α) (x : α) : Prop :=
  ∃ a₁ a₂, a.Builds a₁ ∧ m a₁ = (.ok x, a₂) ∧ a₂.Builds a'

namespace Between

variable {a a' : Assets} {α : Type} {m : BuildM α} {x : α}

theorem of_run (run : m a = (.ok x, a')) : Between a a' m x :=
  ⟨a, a', ReflTransGen.refl, run, ReflTransGen.refl⟩

theorem before {a₀ : Assets} (h : a₀.Builds a) (hbetween : Between a a' m x) :
    Between a₀ a' m x := by
  obtain ⟨a₁, a₂, h₁, hrun, h₂⟩ := hbetween
  exact ⟨a₁, a₂, h.trans h₁, hrun, h₂⟩

theorem after {a₀ : Assets} (hbetween : Between a a' m x) (h : a'.Builds a₀) :
    Between a a₀ m x := by
  obtain ⟨a₁, a₂, h₁, hrun, h₂⟩ := hbetween
  exact ⟨a₁, a₂, h₁, hrun, h₂.trans h⟩

end Between

end Assets

open Assets (Between)

theorem PassTarget.ofTextures_eq_ok {place : PassPlace} {gamma : Bool} {names : List String}
    {targets : List PassTarget} {a a' : Assets}
    (run : ofTextures place gamma names a = (.ok targets, a')) :
    List.Forall₂ (fun name target ↦ Between a a' (ofTexture place gamma name) target) names
      targets := by
  induction names generalizing a targets with
  | nil =>
    cases run
    exact List.Forall₂.nil
  | cons name rest ih =>
    obtain ⟨target, a₁, hfirst, run⟩ := bind_eq_ok run
    obtain ⟨targets', a₂, hrest, run⟩ := bind_eq_ok run
    cases run
    refine List.Forall₂.cons ?_ ((ih hrest).imp fun _ _ h ↦ ?_)
    · exact (Between.of_run hfirst).after ((builds_ofTextures place gamma rest).run hrest)
    · exact h.before ((builds_ofTexture place gamma name).run hfirst)

theorem buildPasses_eq_ok {scene : Scene} {objects : EffectObjects} {bindings : List ViewSlot}
    {technique : String} {number : Nat} {passes : List PassDecl} {records : List PassRecord}
    {a a' : Assets}
    (run : buildPasses scene objects bindings technique number passes a = (.ok records, a')) :
    List.Forall₂ (fun p r ↦ ∃ place, Between a a' (buildPass scene objects bindings place p) r)
      passes records := by
  induction passes generalizing number a records with
  | nil =>
    cases run
    exact List.Forall₂.nil
  | cons p rest ih =>
    obtain ⟨record, a₁, hfirst, run⟩ := bind_eq_ok run
    obtain ⟨records', a₂, hrest, run⟩ := bind_eq_ok run
    cases run
    refine List.Forall₂.cons ⟨⟨technique, number⟩, ?_⟩ ((ih hrest).imp fun _ _ h ↦ ?_)
    · exact (Between.of_run hfirst).after ((builds_buildPasses _ _ _ _ _ rest).run hrest)
    · obtain ⟨place, h⟩ := h
      exact ⟨place, h.before ((builds_buildPass _ _ _ _ p).run hfirst)⟩

theorem buildTechnique_eq_ok {scene : Scene} {objects : EffectObjects} {tables : SlotTables}
    {t : Technique} {state : TechniqueState} {a a' : Assets}
    (run : buildTechnique scene objects tables t a = (.ok state, a')) :
    state.samplers = tables.samplers ∧ state.bindings = tables.bindings ∧
      List.Forall₂ (fun p r ↦
        ∃ place, Between a a' (buildPass scene objects tables.bindings place p) r)
        t.passes state.passes := by
  rw [buildTechnique] at run
  obtain ⟨timer, a₁, htimer, run⟩ := bind_eq_ok run
  obtain ⟨passes, a₂, hpasses, run⟩ := bind_eq_ok (keeping_eq_ok run)
  cases run
  refine ⟨rfl, rfl, (buildPasses_eq_ok hpasses).imp fun _ _ ⟨place, h⟩ ↦ ⟨place, h.before ?_⟩⟩
  exact (builds_onDevice builds_timer.named).run htimer

/-- The technique as the activation of an effect leaves it: built, or left alone. -/
inductive Technique.BuiltBy (scene : Scene) (objects : EffectObjects) (tables : SlotTables)
    (index : Nat) (a a' : Assets) (t : Technique) : Technique → Prop
  /-- A technique of the effect. -/
  | own {state : TechniqueState} (hindex : t.effect = index)
    (hbetween : Between a a' (buildTechnique scene objects tables t) state) :
    BuiltBy scene objects tables index a a' t { t with state := some state }
  /-- A technique of another effect. -/
  | other (hindex : t.effect ≠ index) : BuiltBy scene objects tables index a a' t t

namespace Technique.BuiltBy

variable {scene : Scene} {objects : EffectObjects} {tables : SlotTables} {index : Nat}
  {a a' a₀ : Assets} {t t' : Technique}

theorem before (hbuilds : a₀.Builds a) (h : t.BuiltBy scene objects tables index a a' t') :
    t.BuiltBy scene objects tables index a₀ a' t' := by
  rcases h with ⟨hindex, hbetween⟩ | hindex
  · exact own hindex (hbetween.before hbuilds)
  · exact other hindex

theorem after (h : t.BuiltBy scene objects tables index a a' t') (hbuilds : a'.Builds a₀) :
    t.BuiltBy scene objects tables index a a₀ t' := by
  rcases h with ⟨hindex, hbetween⟩ | hindex
  · exact own hindex (hbetween.after hbuilds)
  · exact other hindex

theorem effect (h : t.BuiltBy scene objects tables index a a' t') : t'.effect = t.effect := by
  rcases h with ⟨-, -⟩ | - <;> rfl

end Technique.BuiltBy

theorem buildTechniques_eq_ok {scene : Scene} {objects : EffectObjects} {tables : SlotTables}
    {index : Nat} {techniques techniques' : List Technique} {a a' : Assets}
    (run : buildTechniques scene objects tables index techniques a = (.ok techniques', a')) :
    List.Forall₂ (Technique.BuiltBy scene objects tables index a a') techniques techniques' := by
  induction techniques generalizing a techniques' with
  | nil =>
    cases run
    exact List.Forall₂.nil
  | cons t rest ih =>
    rw [buildTechniques] at run
    split at run
    · rename_i hindex
      obtain ⟨state, a₁, hfirst, run⟩ := bind_eq_ok run
      obtain ⟨techniques₁, a₂, hrest, run⟩ := bind_eq_ok (keeping_eq_ok run)
      cases run
      have hbuilds := (builds_buildTechniques scene objects tables index rest).run hrest
      refine List.Forall₂.cons (.own hindex ((Between.of_run hfirst).after hbuilds)) ?_
      exact (ih hrest).imp fun _ _ h ↦
        h.before ((builds_buildTechnique scene objects tables t).run hfirst)
    · rename_i hindex
      obtain ⟨techniques₁, a₂, hrest, run⟩ := bind_eq_ok run
      cases run
      exact List.Forall₂.cons (.other hindex) (ih hrest)

/-- The shader is what the device returned for the code of the entry point, between two states. -/
def EntryPoint.Compiles (d d' : Device) (entry : EntryPoint) (shader : Handle .shader) : Prop :=
  ∃ d₁ d₂, d.Evolves d₁ ∧
    Device.createShader entry.stage entry.bytecode d₁ = (.ok shader, d₂) ∧ d₂.Evolves d'

namespace EntryPoint.Compiles

variable {d d' : Device} {entry : EntryPoint} {shader : Handle .shader}

theorem before {d₀ : Device} (hd : d₀.Evolves d) (h : entry.Compiles d d' shader) :
    entry.Compiles d₀ d' shader := by
  obtain ⟨d₁, d₂, h₁, hrun, h₂⟩ := h
  exact ⟨d₁, d₂, hd.trans h₁, hrun, h₂⟩

theorem after {d₀ : Device} (h : entry.Compiles d d' shader) (hd : d'.Evolves d₀) :
    entry.Compiles d d₀ shader := by
  obtain ⟨d₁, d₂, h₁, hrun, h₂⟩ := h
  exact ⟨d₁, d₂, h₁, hrun, h₂.trans hd⟩

theorem made (h : entry.Compiles d d' shader) : d'.Made shader entry.stage := by
  obtain ⟨d₁, d₂, -, hrun, h₂⟩ := h
  obtain ⟨_, stage, hcontent, -, hmade⟩ := Device.made_of_create hrun
  split at hcontent
  · cases hcontent
  · cases hcontent
    exact hmade.evolves h₂

end EntryPoint.Compiles

theorem createShaders_eq_ok {entryPoints : List EntryPoint}
    {shaders : List (String × Handle .shader)} {a a' : Assets}
    (run : createShaders entryPoints a = (.ok shaders, a')) :
    List.Forall₂ (fun entry s ↦ s.1 = entry.name ∧ entry.Compiles a.device a'.device s.2)
      entryPoints shaders := by
  induction entryPoints generalizing a shaders with
  | nil =>
    cases run
    exact List.Forall₂.nil
  | cons entry rest ih =>
    rw [createShaders] at run
    obtain ⟨shader, a₁, hfirst, run⟩ := bind_eq_ok run
    obtain ⟨shaders', a₂, hrest, run⟩ := bind_eq_ok (keeping_eq_ok run)
    cases run
    obtain ⟨d, hcreate, rfl⟩ := onDevice_eq_ok hfirst
    have hcreate := named_eq_ok hcreate
    have hevolves : a.device.Evolves d := Device.Evolves.create.run hcreate
    refine List.Forall₂.cons ⟨rfl, a.device, d, Device.Evolves.refl _, hcreate, ?_⟩
      ((ih hrest).imp fun _ _ h ↦ ⟨h.1, h.2.before hevolves⟩)
    exact ((builds_createShaders rest).run hrest).evolves

theorem buildEffect_eq_ok {scene : Scene} {index : Nat} {e : Effect}
    {techniques techniques' : List Technique} {objects : EffectObjects} {a a' : Assets}
    (run : buildEffect scene index e techniques a = (.ok (objects, techniques'), a')) :
    ∃ tables a₁ a₂, a.Builds a₁ ∧
      (SlotTables.ofModule e.module).bindAll e.module.samplers a₁ = (.ok tables, a₂) ∧
      buildTechniques scene objects tables index techniques a₂ = (.ok techniques', a') := by
  rw [buildEffect] at run
  obtain ⟨shaders, a₁, hshaders, run⟩ := bind_eq_ok run
  obtain ⟨uniformBuffer, a₂, hbuffer, run⟩ := bind_eq_ok (keeping_eq_ok run)
  obtain ⟨tables, a₃, htables, run⟩ := bind_eq_ok (keeping_eq_ok run)
  obtain ⟨techniques₁, a₄, htechniques, run⟩ := bind_eq_ok run
  cases run
  exact ⟨tables, a₂, a₃, ((builds_createShaders _).run hshaders).trans
    ((builds_createUniformBuffer e).run hbuffer), htables, htechniques⟩

theorem shaders_of_buildEffect {scene : Scene} {index : Nat} {e : Effect}
    {techniques techniques' : List Technique} {objects : EffectObjects} {a a' : Assets}
    (run : buildEffect scene index e techniques a = (.ok (objects, techniques'), a')) :
    List.Forall₂ (fun entry s ↦ s.1 = entry.name ∧ entry.Compiles a.device a'.device s.2)
      e.module.entryPoints objects.shaders := by
  rw [buildEffect] at run
  obtain ⟨shaders, a₁, hshaders, run⟩ := bind_eq_ok run
  obtain ⟨uniformBuffer, a₂, hbuffer, run⟩ := bind_eq_ok (keeping_eq_ok run)
  obtain ⟨tables, a₃, htables, run⟩ := bind_eq_ok (keeping_eq_ok run)
  obtain ⟨techniques₁, a₄, htechniques, run⟩ := bind_eq_ok run
  cases run
  have hbuilds : a₁.Builds a' := ((builds_createUniformBuffer e).run hbuffer).trans
    (((SlotTables.builds_bindAll _ _).run htables).trans
      ((builds_buildTechniques _ _ _ _ _).run htechniques))
  exact (createShaders_eq_ok hshaders).imp fun _ _ h ↦ ⟨h.1, h.2.after hbuilds.evolves⟩

/-- An effect that is built has a buffer of zeros for its uniform data, if it has any. -/
theorem uniformBuffer_of_buildEffect {scene : Scene} {index : Nat} {e : Effect}
    {techniques techniques' : List Technique} {objects : EffectObjects} {a a' : Assets}
    (run : buildEffect scene index e techniques a = (.ok (objects, techniques'), a')) :
    (e.uniforms.size = 0 → objects.uniformBuffer = none) ∧
      (e.uniforms.size ≠ 0 → ∃ buffer, ∃ a₁ : Assets, objects.uniformBuffer = some buffer ∧
        buffer.id ≤ a₁.device.lastId ∧
        a₁.device.get? buffer = some (Bytes.zeros (uniformBufferSize e.uniforms.size)) ∧
        a₁.Builds a') := by
  rw [buildEffect] at run
  obtain ⟨shaders, a₁, hshaders, run⟩ := bind_eq_ok run
  obtain ⟨uniformBuffer, a₂, hbuffer, run⟩ := bind_eq_ok (keeping_eq_ok run)
  obtain ⟨tables, a₃, htables, run⟩ := bind_eq_ok (keeping_eq_ok run)
  obtain ⟨techniques₁, a₄, htechniques, run⟩ := bind_eq_ok run
  cases run
  have hbuilds : a₂.Builds a' := ((SlotTables.builds_bindAll _ _).run htables).trans
    ((builds_buildTechniques _ _ _ _ _).run htechniques)
  rw [createUniformBuffer] at hbuffer
  split at hbuffer
  · rename_i hempty
    cases hbuffer
    exact ⟨fun _ ↦ rfl, fun hsome ↦ absurd hempty hsome⟩
  · rename_i hsome
    obtain ⟨buffer, a₃, hcreate, hbuffer⟩ := bind_eq_ok hbuffer
    cases hbuffer
    obtain ⟨d, hnamed, hassets⟩ := onDevice_eq_ok hcreate
    obtain ⟨_, content, hcontent, hget, hmade⟩ := Device.made_of_create (named_eq_ok hnamed)
    split at hcontent <;> cases hcontent
    subst hassets
    exact ⟨fun hempty ↦ absurd hempty hsome, fun _ ↦ ⟨buffer, _, rfl, hmade.id_le, hget, hbuilds⟩⟩

end EffectChain
