import EffectChain.Proofs.Ownership.Operations
import EffectChain.Proofs.Records.Session

/-!
# Records name live objects

What a record refers to is alive as long as its owner is recorded, and all that the engine records
is alive. So in every session the samplers, queries, shaders, states and inputs of a technique are
alive (`TechniqueState.SourcesLive`).

What a pass draws into need not be. A target may be a texture that only other effects declare, and
goes away with the last of them, while the record keeps the view. The targets of a record are alive
exactly if the texture table still provides them under the declared names (`Assets.Provides`), which
is always so for textures that the effect declares itself (`Engine.Sound.live_iff`).
-/

namespace EffectChain

/-! ## Live views -/

namespace Device

variable {d : Device} {t : Handle .texture}

/-- The view is alive, and so is the texture that shaders read through it. -/
def Sees (d : Device) (v : Handle .shaderView) : Prop :=
  v.ref ∈ d.live ∧ ∃ t, d.viewTexture? v = some t ∧ t.ref ∈ d.live

/-- The view is alive, and so is the texture that is drawn into through it. -/
def Reaches (d : Device) (v : Handle .renderTargetView) : Prop :=
  v.ref ∈ d.live ∧ ∃ t, d.targetTexture? v = some t ∧ t.ref ∈ d.live

theorem Shows.viewTexture? {v : Handle .shaderView} (h : d.Shows v t) (hv : v.ref ∈ d.live) :
    d.viewTexture? v = some t := by
  obtain ⟨view, hget⟩ := Device.get?_of_mem_live hv
  have hsome : d.viewTexture? v = some view.texture := by
    rw [Device.viewTexture?, hget]
    rfl
  rwa [h.eq hsome] at hsome

theorem Shows.sees {v : Handle .shaderView} (h : d.Shows v t) (hv : v.ref ∈ d.live)
    (ht : t.ref ∈ d.live) : d.Sees v :=
  ⟨hv, t, h.viewTexture? hv, ht⟩

theorem Draws.reaches_iff {v : Handle .renderTargetView} (h : d.Draws v t) (hv : v.ref ∈ d.live) :
    d.Reaches v ↔ t.ref ∈ d.live := by
  obtain ⟨view, hget⟩ := Device.get?_of_mem_live hv
  have hsome : d.targetTexture? v = some view.texture := by
    rw [targetTexture?, hget]
    rfl
  constructor
  · rintro ⟨-, u, hu, hlive⟩
    rwa [← h.eq hu]
  · refine fun hlive ↦ ⟨hv, view.texture, hsome, ?_⟩
    rwa [h.eq hsome]

end Device

/-! ## What is alive in a record -/

/-- What the pass draws with is alive. -/
structure PassRecord.SourcesLive (d : Device) (r : PassRecord) : Prop where
  /-- Its shaders. -/
  vertexShader : r.vertexShader.ref ∈ d.live
  pixelShader : r.pixelShader.ref ∈ d.live
  /-- Its states. -/
  blend : r.blend.ref ∈ d.live
  depthStencil : r.depthStencil.ref ∈ d.live
  /-- Its inputs, with the textures behind them. -/
  inputs : ∀ v, ViewSlot.view v ∈ r.inputs → d.Sees v

/-- What the pass draws into is alive, and so is what it regenerates the levels of. -/
structure PassRecord.TargetsLive (d : Device) (r : PassRecord) : Prop where
  /-- Its targets. -/
  targets : ∀ t ∈ r.targets, d.Reaches t
  /-- The views of those with several levels. -/
  mipViews : ∀ v ∈ r.mipViews, d.Sees v

/-- What the technique measures and draws with is alive. -/
structure TechniqueState.SourcesLive (d : Device) (s : TechniqueState) : Prop where
  /-- Its queries. -/
  queries : ∀ q ∈ s.timer.queries, q.ref ∈ d.live
  /-- Its samplers. -/
  samplers : ∀ h, some h ∈ s.samplers → h.ref ∈ d.live
  /-- Its textures. -/
  bindings : ∀ v, ViewSlot.view v ∈ s.bindings → d.Sees v
  /-- What its passes draw with. -/
  passes : ∀ r ∈ s.passes, r.SourcesLive d

/-! ## What the assets provide -/

namespace Assets

/-- The view to draw into the texture of a name, if the table has one. -/
def targetView? (a : Assets) (gamma : Bool) (name : String) : Option (Handle .renderTargetView) :=
  ((a.texture? name).bind (·.owned)).bind (·.targets.pick gamma)

/-- The pass would be given the same targets now: the scene target exists, or the texture table has
the views of the record under the declared names. -/
def Provides (a : Assets) (b : Backbuffer) (p : PassDecl) (r : PassRecord) : Prop :=
  if p.targetsBackbuffer then b.resolved.ref ∈ a.device.live
  else p.targetNames.map (a.targetView? p.gammaWrite) = r.targets.map some

instance (a : Assets) (b : Backbuffer) (p : PassDecl) (r : PassRecord) :
    Decidable (a.Provides b p r) := by
  unfold Provides
  infer_instance

/-- All that the assets record is alive. -/
structure Live (a : Assets) : Prop where
  /-- The textures and their views. -/
  textures : ∀ t ∈ a.textures, ∀ r ∈ t.refs, r ∈ a.device.live
  /-- The cached states. -/
  states : ∀ r ∈ a.states.refs, r ∈ a.device.live

variable {a : Assets} {index : Nat} {declared : List String}

theorem Live.owned (h : a.Live) {t : TableTexture} (ht : t ∈ a.textures) {o : OwnedTexture}
    (howned : t.owned = some o) : ∀ r ∈ o.refs, r ∈ a.device.live := fun r hr ↦
  h.textures t ht r (by simpa [TableTexture.refs, howned] using hr)

theorem Live.sees (h : a.Live) (hs : a.Sound) {t : TableTexture} (ht : t ∈ a.textures)
    {o : OwnedTexture} (howned : t.owned = some o) (gamma : Bool) :
    a.device.Sees (o.views.pick gamma) :=
  ((hs.owned t ht o howned).views gamma).sees (h.owned ht howned _ (o.mem_refs_of_view gamma))
    (h.owned ht howned _ List.mem_cons_self)

theorem Live.viewTexture? (h : a.Live) (hs : a.Sound) {t : TableTexture} (ht : t ∈ a.textures)
    {o : OwnedTexture} (howned : t.owned = some o) (gamma : Bool) :
    a.device.viewTexture? (o.views.pick gamma) = some o.resource :=
  ((hs.owned t ht o howned).views gamma).viewTexture?
    (h.owned ht howned _ (o.mem_refs_of_view gamma))

theorem Serves.sees (hs : a.Sound) (hl : a.Live) {v : Handle .shaderView}
    (h : a.Serves index v) : a.device.Sees v := by
  obtain ⟨t, ht, -, o, gamma, howned, rfl⟩ := h
  exact hl.sees hs ht howned gamma

theorem texture?_of_mem (hs : a.Sound) {t : TableTexture} (ht : t ∈ a.textures) :
    a.texture? t.decl.name = some t := by
  obtain ⟨u, hfind⟩ : ∃ u, a.texture? t.decl.name = some u :=
    Option.isSome_iff_exists.mp (List.find?_isSome.mpr ⟨t, ht, by simp⟩)
  obtain ⟨hmem, hname⟩ := mem_of_texture? hfind
  rw [hfind, List.inj_on_of_nodup_map hs.names hmem ht hname]

namespace TargetOf

variable {name : String} {gamma : Bool} {view : Handle .renderTargetView} {o : OwnedTexture}

theorem of_has (h : a.TargetOf index declared name gamma view o) (hs : a.Sound) (hl : a.Live)
    {effects : List Nat → Prop} (hhas : a.Has name o effects) :
    a.targetView? gamma name = some view ∧ a.device.Reaches view ∧
      a.device.Sees o.views.linear := by
  obtain ⟨t, ht, rfl, -, o', howned, hgrows⟩ := hhas
  have hpick := hgrows.targets gamma view h.pick
  have hdraws := (hs.owned t ht o' howned).targets gamma view hpick
  refine ⟨?_, ?_, ?_⟩
  · rw [targetView?, texture?_of_mem hs ht, Option.bind_some, howned]
    exact hpick
  · exact (hdraws.reaches_iff (hl.owned ht howned _ (o'.mem_refs_of_target hpick))).mpr
      (hl.owned ht howned _ List.mem_cons_self)
  · rw [← hgrows.views]
    exact hl.sees hs ht howned false

/-- A live target is the one that the texture table provides, and the other way round. -/
theorem mem_live_iff (h : a.TargetOf index declared name gamma view o) (hs : a.Sound)
    (hl : a.Live) : view.ref ∈ a.device.live ↔ a.targetView? gamma name = some view := by
  constructor
  · intro hlive
    exact (h.of_has hs hl (h.kept.resolve_right fun hgone ↦ hgone hlive)).1
  · -- whatever the table records is alive, under this name or another
    intro hview
    obtain ⟨o', howned, hpick⟩ := Option.bind_eq_some_iff.mp hview
    obtain ⟨t, hfind, howned⟩ := Option.bind_eq_some_iff.mp howned
    exact hl.owned (mem_of_texture? hfind).1 howned _ (o'.mem_refs_of_target hpick)

/-- A live target is a view of a live texture, and so are the other views of that texture. -/
theorem reaches (h : a.TargetOf index declared name gamma view o) (hs : a.Sound) (hl : a.Live)
    (hlive : view.ref ∈ a.device.live) :
    a.device.Reaches view ∧ a.device.Sees o.views.linear :=
  (h.of_has hs hl (h.kept.resolve_right fun hgone ↦ hgone hlive)).2

end TargetOf

/-- The table provides views that were created for textures exactly if they are alive. -/
theorem map_targetView?_iff (hs : a.Sound) (hl : a.Live) {gamma : Bool} {names : List String}
    {sources : List (Handle .renderTargetView × OwnedTexture)}
    (h : List.Forall₂ (fun name s ↦ a.TargetOf index declared name gamma s.1 s.2) names sources) :
    names.map (a.targetView? gamma) = (sources.map (·.1)).map some ↔
      ∀ t ∈ sources.map (·.1), t.ref ∈ a.device.live := by
  induction h with
  | nil => simp
  | cons hof _ ih =>
    rw [List.map_cons, List.map_cons, List.map_cons, List.cons.injEq, List.forall_mem_cons, ih,
      hof.mem_live_iff hs hl]

/-- Views that were created for textures that the effect declares itself are alive. -/
theorem mem_live_of_subset (hs : a.Sound) (hl : a.Live) {gamma : Bool} {names : List String}
    {sources : List (Handle .renderTargetView × OwnedTexture)}
    (h : List.Forall₂ (fun name s ↦ a.TargetOf index declared name gamma s.1 s.2) names sources)
    (hown : names ⊆ declared) : ∀ t ∈ sources.map (·.1), t.ref ∈ a.device.live := by
  intro t ht
  obtain ⟨s, hmem, rfl⟩ := List.mem_map.mp ht
  obtain ⟨name, hname, hof⟩ := exists_of_forall₂_right h hmem
  exact (hof.of_has hs hl (hof.own (hown hname))).2.1.1

end Assets

/-! ## Passes -/

namespace PassRecord.Sound

variable {a : Assets} {b : Backbuffer} {objects : EffectObjects} {index : Nat}
  {declared : List String} {bindings : List ViewSlot} {p : PassDecl} {r : PassRecord}

/-- The targets of a pass are provided if their views are alive, and the scene target is. -/
theorem provides_iff (h : r.Sound a b objects index declared bindings p) (hs : a.Sound)
    (hl : a.Live) (htargets : ∀ gamma, (b.targets.pick gamma).ref ∈ a.device.live) :
    a.Provides b p r ↔ (∀ t ∈ r.targets, t.ref ∈ a.device.live) ∧
      (p.targetsBackbuffer = true → b.resolved.ref ∈ a.device.live) := by
  rw [Assets.Provides]
  rcases hp : p.targetsBackbuffer with _ | _
  · obtain ⟨sources, hviews, hsources, -⟩ := h.textures hp
    rw [if_neg Bool.false_ne_true, hviews, Assets.map_targetView?_iff hs hl hsources]
    simp
  · rw [if_pos rfl, (h.backbuffer hp).1]
    simp [htargets]

/-- **The targets of a pass are alive exactly if they are provided.** -/
theorem targetsLive_iff (h : r.Sound a b objects index declared bindings p) (hs : a.Sound)
    (hl : a.Live) (hb : b.Sound a.device)
    (htargets : ∀ gamma, (b.targets.pick gamma).ref ∈ a.device.live) :
    r.TargetsLive a.device ↔ a.Provides b p r := by
  rw [h.provides_iff hs hl htargets]
  constructor
  · refine fun hlive ↦ ⟨fun t ht ↦ (hlive.targets t ht).1, fun hp ↦ ?_⟩
    have hreaches := hlive.targets (b.targets.pick p.gammaWrite) (by
      rw [(h.backbuffer hp).1]
      exact List.mem_cons_self)
    exact ((hb.targets p.gammaWrite).reaches_iff (htargets p.gammaWrite)).mp hreaches
  · rintro ⟨hlive, hresolved⟩
    rcases hp : p.targetsBackbuffer with _ | _
    · obtain ⟨sources, hviews, hsources, hmips, -⟩ := h.textures hp
      have hreaches : ∀ s ∈ sources, a.device.Reaches s.1 ∧ a.device.Sees s.2.views.linear := by
        intro s hmem
        obtain ⟨name, -, hof⟩ := exists_of_forall₂_right hsources hmem
        exact hof.reaches hs hl (hlive s.1 (hviews ▸ List.mem_map_of_mem hmem))
      refine ⟨fun t ht ↦ ?_, fun v hv ↦ ?_⟩
      · rw [hviews] at ht
        obtain ⟨s, hmem, rfl⟩ := List.mem_map.mp ht
        exact (hreaches s hmem).1
      · obtain ⟨s, hmem, rfl⟩ := List.mem_map.mp (hmips hv)
        exact (hreaches s hmem).2
    · obtain ⟨hviews, hmips⟩ := h.backbuffer hp
      refine ⟨fun t ht ↦ ?_, by simp [hmips]⟩
      rw [hviews] at ht
      obtain rfl := List.mem_singleton.mp ht
      exact ((hb.targets p.gammaWrite).reaches_iff (htargets p.gammaWrite)).mpr (hresolved hp)

theorem provides_of_subset (h : r.Sound a b objects index declared bindings p) (hs : a.Sound)
    (hl : a.Live) (hp : p.targetsBackbuffer = false) (hown : p.targetNames ⊆ declared) :
    a.Provides b p r := by
  obtain ⟨sources, hviews, hsources, -⟩ := h.textures hp
  rw [Assets.Provides, if_neg (by simp [hp]), hviews, Assets.map_targetView?_iff hs hl hsources]
  exact Assets.mem_live_of_subset hs hl hsources hown

theorem sourcesLive (h : r.Sound a b objects index declared bindings p) (hs : a.Sound)
    (hl : a.Live) (hobjects : ∀ r ∈ objects.refs, r ∈ a.device.live)
    (hbindings : ∀ v, ViewSlot.view v ∈ bindings → a.Serves index v) :
    r.SourcesLive a.device := by
  have hshader : ∀ {name : String} {s : Handle .shader}, objects.shader? name = some s →
      s.ref ∈ a.device.live := by
    intro name s hs
    obtain ⟨l₁, l₂, hshaders, -⟩ := List.lookup_eq_some_iff.mp hs
    refine hobjects _ (List.mem_append_left _ ?_)
    rw [hshaders]
    simp
  exact {
    vertexShader := hshader h.vertexShader
    pixelShader := hshader h.pixelShader
    blend := hl.states _ (by simp [StateObjects.refs, StateCache.refs, List.mem_map_of_mem h.blend])
    depthStencil := hl.states _ (by
      simp [StateObjects.refs, StateCache.refs, List.mem_map_of_mem h.depthStencil])
    inputs := fun v hv ↦ by
      rcases h.inputs _ hv with heq | hmem
      · cases heq
      · exact (hbindings v hmem).sees hs hl }

end PassRecord.Sound

theorem TechniqueState.Sound.sourcesLive {a : Assets} {b : Backbuffer} {objects : EffectObjects}
    {index : Nat} {declared : List String} {passes : List PassDecl} {s : TechniqueState}
    (h : s.Sound a b objects index declared passes) (hs : a.Sound) (hl : a.Live)
    (hobjects : ∀ r ∈ objects.refs, r ∈ a.device.live)
    (hqueries : ∀ q ∈ s.timer.queries, q.ref ∈ a.device.live) : s.SourcesLive a.device where
  queries := hqueries
  samplers sampler hmem := hl.states _ (by
    simp [StateObjects.refs, StateCache.refs, List.mem_map_of_mem (h.samplers sampler hmem)])
  bindings v hv := (h.bindings v hv).sees hs hl
  passes r hr := by
    obtain ⟨p, -, hrecord⟩ := exists_of_forall₂_right h.passes hr
    exact hrecord.sourcesLive hs hl hobjects h.bindings

/-! ## Engines -/

namespace Engine

variable {e : Engine} {others : Multiset ObjectRef} {t : Technique} {state : TechniqueState}

theorem Owns.mem_live (h : e.Owns others) {r : ObjectRef} (hr : r ∈ e.refs) :
    r ∈ e.device.live :=
  (Device.Owns.mem_live h).mpr (Multiset.mem_add.mpr (Or.inr hr))

theorem Owns.assets_live (h : e.Owns others) : e.toAssets.Live where
  textures t ht r hr := h.mem_live (by
    simp only [refs, loadedRefs, List.mem_append, List.mem_flatMap]
    exact Or.inl (Or.inr (Or.inl (Or.inr ⟨t, ht, hr⟩))))
  states r hr := h.mem_live (by
    simp only [refs, loadedRefs, List.mem_append]
    exact Or.inl (Or.inr (Or.inr hr)))

theorem mem_refs_of_objects {index : Nat} {objects : EffectObjects}
    (hobjects : e.objects? index = some objects) : ∀ r ∈ objects.refs, r ∈ e.refs := by
  obtain ⟨effect, heffect, hsome⟩ := Option.bind_eq_some_iff.mp hobjects
  intro r hr
  have hmem : some effect ∈ e.effects := by
    obtain ⟨_, hget, rfl⟩ := Option.bind_eq_some_iff.mp heffect
    exact List.mem_of_getElem? hget
  simp only [refs, loadedRefs, List.mem_append, List.mem_flatMap]
  exact Or.inl (Or.inr (Or.inl (Or.inl (Or.inr ⟨_, hmem, effect, by simp, by
    simpa [Effect.refs, hsome] using hr⟩))))

theorem Owns.objects_live (h : e.Owns others) {index : Nat} {objects : EffectObjects}
    (hobjects : e.objects? index = some objects) : ∀ r ∈ objects.refs, r ∈ e.device.live :=
  fun r hr ↦ h.mem_live (mem_refs_of_objects hobjects r hr)

theorem Owns.queries_live (h : e.Owns others) (ht : t ∈ e.techniques)
    (hstate : t.state = some state)
    {q : Handle .query} (hq : q ∈ state.timer.queries) : q.ref ∈ e.device.live := by
  have hr : q.ref ∈ t.refs := by
    rw [Technique.refs, hstate, Option.toList_some, List.flatMap_singleton]
    exact List.mem_map_of_mem hq
  refine h.mem_live ?_
  simp only [refs, loadedRefs, List.mem_append, List.mem_flatMap]
  exact Or.inl (Or.inr (Or.inl (Or.inl (Or.inl ⟨t, ht, hr⟩))))

theorem Owns.backbuffer_live (h : e.Owns others) {b : Backbuffer} (hb : e.backbuffer = some b) :
    ∀ r ∈ b.refs, r ∈ e.device.live := fun r hr ↦ h.mem_live (by
  simp only [refs, List.mem_append, List.mem_flatMap]
  exact Or.inl (Or.inl ⟨b, by simp [hb], hr⟩))

theorem Owns.targets_live (h : e.Owns others) {b : Backbuffer} (hb : e.backbuffer = some b)
    (gamma : Bool) : (b.targets.pick gamma).ref ∈ e.device.live :=
  h.backbuffer_live hb _ (b.mem_refs_of_target gamma)

/-- **What a technique names is alive, but for targets that are not provided any more.** -/
theorem Sound.live_iff (h : e.Sound) (htables : e.Tables) (howns : e.Owns others)
    (ht : t ∈ e.techniques) (hstate : t.state = some state) :
    ∃ b, e.backbuffer = some b ∧ state.SourcesLive e.device ∧
      List.Forall₂ (fun p r ↦ (r.TargetsLive e.device ↔ e.Provides b p r) ∧
          (p.targetsBackbuffer = false → p.targetNames ⊆ e.declaredNames t.effect →
            e.Provides b p r))
        t.passes state.passes := by
  obtain ⟨b, objects, hb, hobjects, hsound⟩ := h.techniques t ht state hstate
  have hlive := howns.assets_live
  refine ⟨b, hb, hsound.sourcesLive htables.assets hlive (howns.objects_live hobjects)
    fun q hq ↦ howns.queries_live ht hstate hq, hsound.passes.imp fun p r hr ↦ ?_⟩
  exact ⟨hr.targetsLive_iff htables.assets hlive (h.backbuffer b hb) (howns.targets_live hb),
    hr.provides_of_subset htables.assets hlive⟩

end Engine

end EffectChain
