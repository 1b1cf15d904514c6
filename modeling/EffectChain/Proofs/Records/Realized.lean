import EffectChain.Proofs.Coherence
import EffectChain.Proofs.Ownership.Session
import EffectChain.Proofs.Records.Declared

/-!
# Records realize their declarations

A successful activation leaves every technique of its effect with one record per declared pass, in
order, and what the handles of a record stand for on the device is what the pass declares
(`PassRecord.Realizes`). The handles come from four places: shaders from the effect's own objects,
states from caches that all effects share, views from the texture table or from the backbuffer. In
each of them something could stand under the wrong key, and nothing at frame time would notice. The
statement therefore goes through to the contents of the device, and mentions no cache.

`PassRecord.Implements` says what a record was made from, `PassRecord.Sound` where its handles are
recorded, and the ownership of the session that they are alive. Put together they say what is found
for them.
-/

namespace EffectChain

/-! ## First occurrences -/

section FirstOccurrences

variable {α : Type} [DecidableEq α] {l : List α}

/-- The list has what occurs in another list, each once and in the order of first occurrence. -/
structure FirstOccurrences (l l' : List α) : Prop where
  /-- Nothing occurs twice. -/
  nodup : l'.Nodup
  /-- It has the same members. -/
  mem_iff : ∀ x, x ∈ l' ↔ x ∈ l
  /-- They are in the order of their first occurrences. -/
  order : l'.Pairwise fun x y ↦ l.idxOf x < l.idxOf y

/-- What is left out of a list does not change the order of what stays. -/
theorem idxOf_lt_of_filter {p : α → Bool} {x y : α} (hy : p y)
    (h : (l.filter p).idxOf x < (l.filter p).idxOf y) : l.idxOf x < l.idxOf y := by
  induction l with
  | nil => exact absurd h (Nat.lt_irrefl _)
  | cons a l ih =>
    by_cases hay : a = y
    · subst hay
      rw [List.filter_cons_of_pos hy, List.idxOf_cons_eq _ rfl] at h
      exact absurd h (Nat.not_lt_zero _)
    · rw [List.idxOf_cons_ne _ hay]
      by_cases hax : a = x
      · rw [List.idxOf_cons_eq _ hax]
        exact Nat.succ_pos _
      · rw [List.idxOf_cons_ne _ hax]
        refine Nat.succ_lt_succ (ih ?_)
        by_cases ha : p a
        · rw [List.filter_cons_of_pos ha, List.idxOf_cons_ne _ hax, List.idxOf_cons_ne _ hay] at h
          exact Nat.lt_of_succ_lt_succ h
        · rwa [List.filter_cons_of_neg ha] at h

theorem firstOccurrences_eraseDups (l : List α) : FirstOccurrences l l.eraseDups := by
  suffices horder : l.eraseDups.Pairwise fun x y ↦ l.idxOf x < l.idxOf y from
    ⟨horder.imp fun hlt heq ↦ by simp [heq] at hlt, fun x ↦ List.mem_eraseDups, horder⟩
  induction hn : l.length using Nat.strong_induction_on generalizing l with
  | _ n ih =>
    cases l with
    | nil => exact List.Pairwise.nil
    | cons a l =>
      rw [List.eraseDups_cons, List.pairwise_cons]
      have hne : ∀ x ∈ (l.filter fun b ↦ !b == a).eraseDups, a ≠ x := by
        intro x hx heq
        simpa [heq] using (List.mem_filter.mp (List.mem_eraseDups.mp hx)).2
      have hrest := ih _ (hn ▸ Nat.lt_succ_of_le (List.length_filter_le _ _))
        (l.filter fun b ↦ !b == a) rfl
      refine ⟨fun x hx ↦ ?_, hrest.imp_of_mem fun hx hy hlt ↦ ?_⟩
      · rw [List.idxOf_cons_eq _ rfl, List.idxOf_cons_ne _ (hne x hx)]
        exact Nat.succ_pos _
      · rw [List.idxOf_cons_ne _ (hne _ hx), List.idxOf_cons_ne _ (hne _ hy)]
        refine Nat.succ_lt_succ (idxOf_lt_of_filter ?_ hlt)
        exact (List.mem_filter.mp (List.mem_eraseDups.mp hy)).2

end FirstOccurrences

/-! ## Shaders -/

/-- The shader was created for the entry point of a name, between two states of the device, and is
alive as a shader of a stage. -/
structure EntryPoint.NamedCompiles (entryPoints : List EntryPoint) (d d' : Device)
    (stage : ShaderStage) (name : String) (shader : Handle .shader) : Prop where
  /-- It is what the device returned for the entry point. -/
  entry : ∃ entry, (entryPoints.find? fun e ↦ e.name = name) = some entry ∧ entry.stage = stage ∧
    entry.Compiles d d' shader
  /-- It is a shader of the stage. -/
  stored : d'.get? shader = some stage

namespace EffectModule

variable {m : EffectModule}

theorem exists_passViolations_of_validate (h : m.validate = .ok ()) {t : TechniqueDecl}
    (ht : t ∈ m.techniques) {p : PassDecl} (hp : p ∈ t.passes) :
    ∃ i, m.passViolations t.name p i = [] := by
  rw [validate_eq_ok_iff, violations, List.append_eq_nil_iff, List.append_eq_nil_iff,
    List.flatMap_eq_nil_iff] at h
  have htechnique := h.1.2 t ht
  rw [techniqueViolations, List.flatMap_eq_nil_iff] at htechnique
  obtain ⟨i, hi⟩ := List.mem_iff_getElem?.mp hp
  exact ⟨i, htechnique (p, i) (List.mem_zipIdx_iff_getElem?.mpr hi)⟩

/-- Passes of a valid module draw with entry points of the right stages. -/
theorem hasEntryPoint_of_validate (h : m.validate = .ok ()) {t : TechniqueDecl}
    (ht : t ∈ m.techniques) {p : PassDecl} (hp : p ∈ t.passes) :
    m.hasEntryPoint .vertex p.vertexEntry ∧ m.hasEntryPoint .pixel p.pixelEntry := by
  obtain ⟨i, hpass⟩ := exists_passViolations_of_validate h ht hp
  rw [passViolations, List.append_eq_nil_iff, List.append_eq_nil_iff] at hpass
  obtain ⟨⟨hvertex, hpixel⟩, -⟩ := hpass
  constructor
  · by_contra hnot
    rw [if_neg hnot] at hvertex
    cases hvertex
  · by_contra hnot
    rw [if_neg hnot] at hpixel
    cases hpixel

/-- Passes of a valid module have no more targets than there are slots. -/
theorem length_targetNames_of_validate (h : m.validate = .ok ()) {t : TechniqueDecl}
    (ht : t ∈ m.techniques) {p : PassDecl} (hp : p ∈ t.passes) :
    p.targetNames.length ≤ maxRenderTargets := by
  obtain ⟨i, hpass⟩ := exists_passViolations_of_validate h ht hp
  rw [passViolations, List.append_eq_nil_iff] at hpass
  by_contra hnot
  rw [if_neg hnot] at hpass
  cases hpass.2

/-- What is found under a name belongs to the first entry point of the name. -/
theorem exists_of_lookup {R : EntryPoint → Handle .shader → Prop} {entryPoints : List EntryPoint}
    {shaders : List (String × Handle .shader)}
    (h : List.Forall₂ (fun entry s ↦ s.1 = entry.name ∧ R entry s.2) entryPoints shaders)
    {name : String} {shader : Handle .shader} (hlookup : shaders.lookup name = some shader) :
    ∃ entry, (entryPoints.find? fun e ↦ e.name = name) = some entry ∧ R entry shader := by
  induction h with
  | nil => cases hlookup
  | @cons entry s entryPoints shaders hfirst _ ih =>
    obtain ⟨hname, hR⟩ := hfirst
    rw [List.find?_cons]
    rw [List.lookup_cons, hname] at hlookup
    by_cases heq : entry.name = name
    · rw [beq_iff_eq.mpr heq.symm] at hlookup
      cases hlookup
      exact ⟨entry, by simp [heq], hR⟩
    · rw [beq_eq_false_iff_ne.mpr (Ne.symm heq)] at hlookup
      obtain ⟨entry', hfind, hR'⟩ := ih hlookup
      exact ⟨entry', by simpa [heq] using hfind, hR'⟩

/-- The shader that an active effect has under the name of an entry point. -/
theorem compiles_of_shader? {d d' : Device} {objects : EffectObjects} {stage : ShaderStage}
    {name : String} {shader : Handle .shader}
    (hshaders : List.Forall₂ (fun entry s ↦ s.1 = entry.name ∧ entry.Compiles d d' s.2)
      m.entryPoints objects.shaders)
    (hstage : m.hasEntryPoint stage name) (hfind : objects.shader? name = some shader)
    (hlive : shader.ref ∈ d'.live) :
    EntryPoint.NamedCompiles m.entryPoints d d' stage name shader := by
  obtain ⟨entry, hentry, hcompiles⟩ := exists_of_lookup hshaders hfind
  have hstage : entry.stage = stage := by simpa [hasEntryPoint, entryPoint?, hentry] using hstage
  exact ⟨⟨entry, hentry, hstage, hcompiles⟩,
    hstage ▸ hcompiles.made.get? hlive fun heq ↦ heq⟩

end EffectModule

/-! ## States -/

/-- The descriptor is the same for all attachments, with what a pass declares. -/
structure BlendDesc.Replicates (p : PassDecl) (desc : BlendDesc) : Prop where
  /-- Every attachment is switched and masked alike. -/
  attachments : ∀ i (h : i < maxRenderTargets),
    desc.enable[i] = p.blendEnable ∧ desc.writeMask[i] = p.colorWriteMask
  /-- The factors and the operation of the colours. -/
  color : desc.srcBlend = p.srcBlend ∧ desc.destBlend = p.destBlend ∧ desc.blendOp = p.blendOp
  /-- The factors and the operation of the alphas. -/
  alpha : desc.srcBlendAlpha = p.srcBlendAlpha ∧ desc.destBlendAlpha = p.destBlendAlpha ∧
    desc.blendOpAlpha = p.blendOpAlpha

theorem BlendDesc.replicates_ofDecl (p : PassDecl) : (ofDecl p).Replicates p where
  attachments i h := by simp [ofDecl]
  color := ⟨rfl, rfl, rfl⟩
  alpha := ⟨rfl, rfl, rfl⟩

/-- The descriptor leaves depth alone, and has the stencil test that a pass declares. -/
structure DepthStencilDesc.Declares (p : PassDecl) (desc : DepthStencilDesc) : Prop where
  /-- Depth is neither tested nor written. -/
  depth : desc.depthEnable = false ∧ desc.depthWrite = false
  /-- The test and its masks. -/
  stencil : desc.stencilEnable = p.stencilEnable ∧ desc.readMask = p.stencilReadMask ∧
    desc.writeMask = p.stencilWriteMask
  /-- The operations of front faces. -/
  front : desc.front = ⟨p.stencilFail, p.stencilDepthFail, p.stencilPass, p.stencilFunc⟩
  /-- Back faces are treated alike. -/
  back : desc.back = desc.front

theorem DepthStencilDesc.declares_ofDecl (p : PassDecl) : (ofDecl p).Declares p where
  depth := ⟨rfl, rfl⟩
  stencil := ⟨rfl, rfl, rfl⟩
  front := rfl
  back := rfl

/-! ## Targets -/

/-- A texture that a pass draws into, with what is recorded and what is stored for it. -/
structure DrawnTexture where
  /-- Its entry in the texture table. -/
  entry : TableTexture
  /-- Its device objects. -/
  owned : OwnedTexture
  /-- What the device stores for it. -/
  stored : Texture

namespace DrawnTexture

def size (x : DrawnTexture) : UInt32 × UInt32 := (x.entry.decl.width, x.entry.decl.height)

/-- The linear views of the textures that have several levels. -/
def mipViews (xs : List DrawnTexture) : List (Handle .shaderView) :=
  (xs.filter fun x ↦ 1 < x.stored.desc.levels).map (·.owned.views.linear)

/-- It is the texture of a name, made from the declaration in the table. -/
structure Named (a : Assets) (name : String) (x : DrawnTexture) : Prop where
  /-- It is found under the name, and can be drawn into. -/
  found : PassTarget.Found a name x.entry x.owned
  /-- It is alive. -/
  stored : a.device.get? x.owned.resource = some x.stored
  /-- It is as declared, and what is settled at its creation is the number of levels. -/
  desc : ∃ levels, x.stored.desc = { x.entry.decl.textureDesc with levels }
  /-- Its linear view is one of it. -/
  linear : a.device.get? x.owned.views.linear
    = some ⟨x.owned.resource, x.entry.decl.viewFormat false⟩

/-- The view is the one to draw into the texture in a variant. -/
structure DrawnThrough (a : Assets) (gamma : Bool) (x : DrawnTexture)
    (view : Handle .renderTargetView) : Prop where
  /-- It is recorded with the texture for the variant. -/
  pick : x.owned.targets.pick gamma = some view
  /-- It is one of the texture, in the format of the variant. -/
  stored : a.device.get? view = some ⟨x.owned.resource, x.entry.decl.viewFormat gamma⟩

variable {a : Assets} {gamma : Bool}

/-- What the texture table provides under a name is a texture to draw into. -/
theorem exists_of_targetView? (hs : a.Sound) (hl : a.Live)
    (hreference : ∀ t ∈ a.textures, t.owned.isSome → t.decl.reference = .owned) {name : String}
    {view : Handle .renderTargetView} (h : a.targetView? gamma name = some view) :
    ∃ x : DrawnTexture, x.Named a name ∧ x.DrawnThrough a gamma view := by
  obtain ⟨o, hentry, hpick⟩ := Option.bind_eq_some_iff.mp h
  obtain ⟨t, hfind, howned⟩ := Option.bind_eq_some_iff.mp hentry
  obtain ⟨hmem, rfl⟩ := Assets.mem_of_texture? hfind
  have hsound := hs.owned t hmem o howned
  have hlive := hl.owned hmem howned
  obtain ⟨c, hmake, hmade⟩ := hsound.made
  obtain ⟨c', hget, halike⟩ := hmade.exists_get? (hlive _ List.mem_cons_self)
  obtain ⟨levels, hdesc⟩ := Texture.desc_of_make hmake
  refine ⟨⟨t, o, c'⟩, ⟨⟨hfind, hreference t hmem (by rw [howned]; rfl), howned⟩, hget,
    ⟨levels, Eq.trans halike hdesc⟩, ?_⟩, hpick, ?_⟩
  · exact (hsound.shown false).get? (hlive _ (o.mem_refs_of_view false)) fun heq ↦ heq
  · exact (hsound.drawn gamma view hpick).get? (hlive _ (o.mem_refs_of_target hpick)) fun heq ↦ heq

/-- What the texture table provides under names are textures to draw into. -/
theorem exists_of_targetViews (hs : a.Sound) (hl : a.Live)
    (hreference : ∀ t ∈ a.textures, t.owned.isSome → t.decl.reference = .owned)
    {names : List String} {views : List (Handle .renderTargetView)}
    (h : views.map some = names.map (a.targetView? gamma)) :
    ∃ xs : List DrawnTexture, List.Forall₂ (fun name x ↦ Named a name x) names xs ∧
      List.Forall₂ (DrawnThrough a gamma) xs views := by
  induction names generalizing views with
  | nil =>
    rw [List.map_eq_nil_iff.mp h]
    exact ⟨[], List.Forall₂.nil, List.Forall₂.nil⟩
  | cons name rest ih =>
    obtain ⟨view, views', rfl, hview, hviews⟩ := List.map_eq_cons_iff.mp h
    obtain ⟨x, hnamed, hdrawn⟩ := exists_of_targetView? hs hl hreference hview.symm
    obtain ⟨xs, hnamed', hdrawn'⟩ := ih hviews
    exact ⟨x :: xs, List.Forall₂.cons hnamed hnamed', List.Forall₂.cons hdrawn hdrawn'⟩

theorem Named.mipView? {name : String} {x : DrawnTexture} (h : x.Named a name) :
    a.mipView? name = if 1 < x.stored.desc.levels then some x.owned.views.linear else none := by
  rw [Assets.mipView?, h.found.find, Option.bind_some, h.found.owned, Option.bind_some,
    OwnedTexture.hasMips_of_get? h.stored]
  simp only [decide_eq_true_eq]

theorem filterMap_mipView? {names : List String} {xs : List DrawnTexture}
    (h : List.Forall₂ (fun name x ↦ Named a name x) names xs) :
    names.filterMap a.mipView? = mipViews xs := by
  induction h with
  | nil => rfl
  | @cons name x _ xs hnamed _ ih =>
    rw [List.filterMap_cons, hnamed.mipView?, ih, mipViews, mipViews, List.filter_cons]
    by_cases hlevels : 1 < x.stored.desc.levels <;> simp [hlevels]

theorem Named.size? {name : String} {x : DrawnTexture} (h : x.Named a name) :
    a.size? name = some x.size := by
  rw [Assets.size?, h.found.find]
  rfl

end DrawnTexture

/-! ## Passes -/

namespace PassRecord

/-- What the pass draws into, and the size of the first target. -/
inductive Draws (a : Assets) (b : Backbuffer) (p : PassDecl) (r : PassRecord) :
    UInt32 × UInt32 → Prop
  /-- Without names it is the scene target. -/
  | scene (names : p.targetNames = [])
    (slots : r.targetSlots
      = some (b.targets.pick p.gammaWrite) :: List.replicate (maxRenderTargets - 1) none)
    (stored : a.device.get? (b.targets.pick p.gammaWrite)
      = some ⟨b.resolved, b.format.variant p.gammaWrite⟩)
    (mipViews : r.mipViews = []) : Draws a b p r (b.width, b.height)
  /-- With names it is the textures of these names. -/
  | textures {x : DrawnTexture} {xs : List DrawnTexture} {views : List (Handle .renderTargetView)}
    (named : List.Forall₂ (fun name x ↦ x.Named a name) p.targetNames (x :: xs))
    (drawn : List.Forall₂ (DrawnTexture.DrawnThrough a p.gammaWrite) (x :: xs) views)
    (length : views.length ≤ maxRenderTargets)
    (slots : r.targetSlots
      = views.map some ++ List.replicate (maxRenderTargets - views.length) none)
    (mipViews : FirstOccurrences (DrawnTexture.mipViews (x :: xs)) r.mipViews) :
    Draws a b p r x.size

/-- What is found for the handles of the record is what its pass declares. -/
structure Realizes (d : Device) (a : Assets) (b : Backbuffer) (entryPoints : List EntryPoint)
    (p : PassDecl) (r : PassRecord) : Prop where
  /-- It draws with the shaders of the named entry points, created since. -/
  vertexShader :
    EntryPoint.NamedCompiles entryPoints d a.device .vertex p.vertexEntry r.vertexShader
  pixelShader : EntryPoint.NamedCompiles entryPoints d a.device .pixel p.pixelEntry r.pixelShader
  /-- Its viewport is the declared one if neither dimension is zero, and else as large as the first
  target. -/
  draws : ∃ size, r.Draws a b p size ∧ r.viewport =
    if p.viewportWidth ≠ 0 ∧ p.viewportHeight ≠ 0 then (p.viewportWidth, p.viewportHeight)
    else size
  /-- Its blend state. -/
  blend : ∃ desc, a.device.get? r.blend = some desc ∧ desc.Replicates p
  /-- Its depth-stencil state. -/
  depthStencil : ∃ desc, a.device.get? r.depthStencil = some desc ∧ desc.Declares p
  /-- Its numbers and switches. -/
  stencilReference : r.stencilReference = p.stencilReference
  stencilEnable : r.stencilEnable = p.stencilEnable
  clearsTargets : r.clearsTargets = p.clearsTargets
  vertexCount : r.vertexCount = p.vertexCount

variable {a : Assets} {b : Backbuffer} {p : PassDecl} {r : PassRecord}

theorem Implements.draws (h : r.Implements a b p) (hs : a.Sound) (hl : a.Live)
    (hreference : ∀ t ∈ a.textures, t.owned.isSome → t.decl.reference = .owned)
    (hb : b.Sound a.device) (htargets : ∀ gamma, (b.targets.pick gamma).ref ∈ a.device.live)
    (hlength : r.targets.length ≤ maxRenderTargets) :
    ∃ size, r.Draws a b p size ∧ r.viewport = p.explicitViewport?.getD size := by
  have hviews := h.targets
  have hmips := h.mipViews
  have hviewport := h.viewport
  rcases hp : p.targetsBackbuffer with _ | _
  · rw [hp, if_neg Bool.false_ne_true] at hviews hmips hviewport
    obtain ⟨xs, hnamed, hdrawn⟩ := DrawnTexture.exists_of_targetViews hs hl hreference hviews
    rw [DrawnTexture.filterMap_mipView? hnamed] at hmips
    rcases hnames : p.targetNames with _ | ⟨name, names⟩
    · simp [PassDecl.targetsBackbuffer, hnames] at hp
    · rw [hnames] at hnamed hviewport
      rcases hnamed with _ | ⟨hfirst, hrest⟩
      rw [List.head?_cons, Option.bind_some, hfirst.size?, Option.getD_some] at hviewport
      refine ⟨_, .textures (hnames ▸ List.Forall₂.cons hfirst hrest) hdrawn hlength rfl ?_,
        hviewport⟩
      rw [hmips]
      exact firstOccurrences_eraseDups _
  · rw [hp, if_pos rfl] at hviews hmips hviewport
    refine ⟨_, .scene (List.isEmpty_iff.mp hp) ?_ ?_ hmips, hviewport⟩
    · obtain ⟨view, hsingle, hview⟩ := List.map_eq_singleton_iff.mp hviews
      rw [targetSlots, hsingle, ← hview]
      rfl
    · exact (hb.drawn p.gammaWrite).get? (htargets p.gammaWrite) fun heq ↦ heq

theorem Implements.realizes {d : Device} {m : EffectModule} {objects : EffectObjects} {index : Nat}
    {declared : List String} {bindings : List ViewSlot} (h : r.Implements a b p)
    (hsound : r.Sound a b objects index declared bindings p) (hlive : r.SourcesLive a.device)
    (hdraws : ∃ size, r.Draws a b p size ∧ r.viewport = p.explicitViewport?.getD size)
    (hshaders : List.Forall₂ (fun entry s ↦ s.1 = entry.name ∧ entry.Compiles d a.device s.2)
      m.entryPoints objects.shaders)
    (hstages : m.hasEntryPoint .vertex p.vertexEntry ∧ m.hasEntryPoint .pixel p.pixelEntry) :
    r.Realizes d a b m.entryPoints p where
  vertexShader :=
    EffectModule.compiles_of_shader? hshaders hstages.1 hsound.vertexShader hlive.vertexShader
  pixelShader :=
    EffectModule.compiles_of_shader? hshaders hstages.2 hsound.pixelShader hlive.pixelShader
  draws := by
    obtain ⟨size, hdraws, hviewport⟩ := hdraws
    refine ⟨size, hdraws, hviewport.trans ?_⟩
    rw [PassDecl.explicitViewport?]
    split <;> rfl
  blend := ⟨_, h.blend.get? hlive.blend fun heq ↦ heq, BlendDesc.replicates_ofDecl p⟩
  depthStencil :=
    ⟨_, h.depthStencil.get? hlive.depthStencil fun heq ↦ heq, DepthStencilDesc.declares_ofDecl p⟩
  stencilReference := h.stencilReference
  stencilEnable := h.stencilEnable
  clearsTargets := h.clearsTargets
  vertexCount := h.vertexCount

end PassRecord

/-! ## Effects -/

/-- Lists that agree in some respect are related member by member. -/
theorem forall₂_of_map_eq {α β γ : Type} {f : α → γ} {g : β → γ} {R : α → β → Prop} {l : List α}
    {l' : List β} (h : l.map f = l'.map g) (hR : ∀ x ∈ l, ∀ y ∈ l', f x = g y → R x y) :
    List.Forall₂ R l l' := by
  induction l generalizing l' with
  | nil =>
    rw [List.map_eq_nil_iff.mp h.symm]
    exact List.Forall₂.nil
  | cons x l ih =>
    obtain ⟨y, l', rfl, hxy, hrest⟩ := List.map_eq_cons_iff.mp h.symm
    exact List.Forall₂.cons (hR x List.mem_cons_self y List.mem_cons_self hxy.symm)
      (ih hrest.symm fun x hx y hy ↦ hR x (List.mem_cons_of_mem _ hx) y (List.mem_cons_of_mem _ hy))

/-- The technique is built as declared: it has one record per pass, in order. -/
structure Technique.Realizes (d : Device) (a : Assets) (b : Backbuffer)
    (entryPoints : List EntryPoint) (decl : TechniqueDecl) (t : Technique) : Prop where
  /-- It is the declared technique. -/
  name : t.name = decl.name
  passes : t.passes = decl.passes
  /-- Its records are what its passes declare. -/
  state : ∃ state, t.state = some state ∧
    List.Forall₂ (PassRecord.Realizes d a b entryPoints) decl.passes state.passes

namespace Engine

/-- The techniques of an index are those of a module, built as declared since a state of the
device. -/
def Realizes (d : Device) (e : Engine) (index : Nat) (m : EffectModule) : Prop :=
  ∃ b, e.backbuffer = some b ∧
    List.Forall₂ (Technique.Realizes d e.toAssets b m.entryPoints) m.techniques
      (e.techniques.filter fun t ↦ t.effect = index)

/-- What holds of the engine between operations. -/
structure InOrder (e : Engine) : Prop where
  /-- Its techniques are those of its modules. -/
  coherent : e.Coherent
  /-- Its tables are in order. -/
  tables : e.Tables
  /-- Its records are sound. -/
  sound : e.Sound
  /-- What it records is alive. -/
  owns : ∃ others, e.Owns others

/-- The engine is one in which the effect of an index was activated just now, with a module, on a
device that evolved from a state. -/
structure ActivatedFrom (d : Device) (e : Engine) (index : Nat) (m : EffectModule) : Prop
    extends e.InOrder where
  /-- It was activated on sound assets. -/
  run : ∃ (e₀ : Engine) (effect : Effect), e₀.toAssets.Sound ∧ d.Evolves e₀.device ∧
    e₀.effect? index = some effect ∧ effect.module = m ∧ e₀.activate index = (.ok (), e)

theorem exists_implements_activate {e e' : Engine} {index : Nat} {effect : Effect} {b : Backbuffer}
    (hs : e.toAssets.Sound) (heffect : e.effect? index = some effect)
    (hb : e.backbuffer = some b) (run : e.activate index = (.ok (), e')) {t : Technique}
    (ht : t ∈ e'.techniques) (hindex : t.effect = index) :
    ∃ state, t.state = some state ∧ state.Implements e'.toAssets b effect.module t.passes := by
  obtain ⟨t₀, -, ⟨-, state, rfl, hstate⟩ | ⟨hne, rfl⟩⟩ :=
    exists_of_forall₂_right (implements_activate hs heffect hb run) ht
  · exact ⟨state, rfl, hstate⟩
  · exact absurd hindex hne

/-- **A successful activation realizes what the module declares.** -/
theorem ActivatedFrom.realizes {d : Device} {e : Engine} {index : Nat} {m : EffectModule}
    (h : e.ActivatedFrom d index m) : e.Realizes d index m := by
  obtain ⟨⟨hcoherent, htables, hsound, others, howns⟩, e₀, effect, hs, hd, heffect, rfl, run⟩ := h
  obtain ⟨effect', textures, d', b, objects, heffect', hvalidate, htextures, hb, hbuild, heffects,
    hbackbuffer, -⟩ := activate_eq_ok run
  cases heffect.symm.trans heffect'
  have hb' : e.backbuffer = some b := hbackbuffer.trans hb
  have hshaders := (shaders_of_buildEffect hbuild).imp fun _ _ h ↦
    And.intro h.1 (h.2.before (hd.trans ((evolves_materialize index e₀.textures).run htextures)))
  have hactive : e.effect? index = some { effect with failure := none, objects := some objects } :=
    (heffects index).trans (if_pos rfl)
  have hlive := howns.assets_live
  refine ⟨b, hb', forall₂_of_map_eq (hcoherent.own index _ hactive).symm
    fun decl hdecl t ht heq ↦ ?_⟩
  obtain ⟨ht, hindex⟩ := List.mem_filter.mp ht
  have hindex : t.effect = index := by simpa using hindex
  obtain ⟨hname, hpasses⟩ := Prod.mk.inj heq
  obtain ⟨state, hstate, himplements⟩ := exists_implements_activate hs heffect hb run ht hindex
  obtain ⟨b', objects', hb'', hobjects, hrecords⟩ := hsound.techniques t ht state hstate
  cases hb'.symm.trans hb''
  have hobjects_live := howns.objects_live hobjects
  rw [hindex, objects?, hactive, Option.bind_some] at hobjects
  cases hobjects
  refine ⟨hname.symm, hpasses.symm, state, hstate, ?_⟩
  rw [hpasses]
  -- the records implement the passes one by one, and every pass has its entry points
  have hdeclared := (List.forall₂_and_left _ _).mpr ⟨fun p hp ↦
    EffectModule.hasEntryPoint_of_validate hvalidate hdecl (hpasses ▸ hp), himplements.passes⟩
  refine List.Forall₂.mp (fun p r himplements hsoundr ↦ ?_) hdeclared hrecords.passes
  exact himplements.2.realizes hsoundr
    (hsoundr.sourcesLive htables.assets hlive hobjects_live hrecords.bindings)
    (himplements.2.draws htables.assets hlive hcoherent.reference (hsound.backbuffer b hb')
      (howns.targets_live hb') hsoundr.length_le) hshaders himplements.1

end Engine

/-! ## Sessions -/

namespace Session

variable {s : Session}

theorem Reachable.inOrder (hs : s.Reachable Event.Lawful) : s.engine.InOrder := by
  obtain ⟨strays, howns, -⟩ := hs.owns fun _ _ h ↦ h
  exact ⟨hs.coherent, hs.tables, hs.sound, _, howns⟩

theorem Reachable.activated_load (hs : s.Reachable Event.Lawful) {m : EffectModule} {index : Nat}
    {e : Engine} (run : s.engine.load m = (.ok index, e)) :
    e.ActivatedFrom s.device index m.reserveSlots := by
  have hengine : (s.step (.load m)).engine = e := congrArg Prod.snd run
  have hnext := hengine ▸ (hs.step (show (Event.load m).Lawful s from trivial)).inOrder
  obtain ⟨rfl, hactivate⟩ := Engine.load_eq_ok run
  exact ⟨hnext, _, _, (hs.tables.registered m.reserveSlots).assets, Device.Evolves.refl _,
    s.engine.effect?_register _, rfl, hactivate⟩

theorem Reachable.activated_reload (hs : s.Reachable Event.Lawful) {index : Nat} {e : Engine}
    (run : s.engine.reload index = (.ok (), e)) :
    ∃ effect, s.engine.effect? index = some effect ∧
      e.ActivatedFrom s.device index effect.module := by
  have hengine : (s.step (.reload index)).engine = e := congrArg Prod.snd run
  have hnext := hengine ▸ (hs.step (show (Event.reload index).Lawful s from trivial)).inOrder
  rcases hs.tables.reload_cases index with ⟨-, hrun⟩ | ⟨effect, heffect, hrun⟩ <;> rw [hrun] at run
  · cases run
  · exact ⟨effect, heffect, hnext, _, _, (hs.tables.deactivated index).assets,
      Device.Evolves.release _ _, Engine.effect?_deactivate_self heffect, rfl, run⟩

/-- **Records realize their declarations.** Whenever an effect is loaded or reloaded successfully,
each of its techniques has one record per declared pass, in order, with the declared shaders,
targets, viewport and states. -/
theorem Reachable.realized {s : Session} (hs : s.Reachable Event.Lawful) :
    (∀ m index e, s.engine.load m = (.ok index, e) → e.Realizes s.device index m) ∧
      ∀ index e, s.engine.reload index = (.ok (), e) →
        ∃ effect, s.engine.effect? index = some effect ∧
          e.Realizes s.device index effect.module := by
  refine ⟨fun m index e run ↦ (hs.activated_load run).realizes, fun index e run ↦ ?_⟩
  obtain ⟨effect, heffect, hactivated⟩ := hs.activated_reload run
  exact ⟨effect, heffect, hactivated.realizes⟩

/-- An effect of two passes. One draws twice into a texture with several levels, the other into the
scene, with one dimension of the viewport declared. -/
theorem realized_small :
    let pass : PassDecl := { vertexEntry := "vertex", pixelEntry := "pixel" }
    let m : EffectModule :=
      { EffectModule.single "paint" [{ name := "canvas", width := 8, height := 2, levels := 0 }] []
          [] with
        techniques := [{
          name := "paint"
          passes := [{ pass with targetNames := ["canvas", "canvas"], gammaWrite := true },
            { pass with viewportWidth := 3 }] }] }
    ∃ e, small.engine.load m = (.ok 0, e) ∧ e.Realizes small.device 0 m ∧
      e.techniques.map (fun t ↦ t.state.map fun state ↦
          state.passes.map fun r ↦ (r.targets.length, r.mipViews.length, r.viewport))
        = [some [(2, 1, (8, 2)), (1, 0, (4, 4))]] := by
  intro pass m
  have hs : small.Reachable Event.Lawful := .step (.step (.start {} {}) trivial) trivial
  have hsucceeds : (small.engine.load m).1.toOption = some 0 := by decide +kernel
  have hrecords : (small.engine.load m).2.techniques.map (fun t ↦ t.state.map fun state ↦
      state.passes.map fun r ↦ (r.targets.length, r.mipViews.length, r.viewport))
        = [some [(2, 1, (8, 2)), (1, 0, (4, 4))]] := by decide +kernel
  rcases hload : small.engine.load m with ⟨_ | index, e⟩ <;> rw [hload] at hsucceeds hrecords <;>
    cases hsucceeds
  exact ⟨e, rfl, (Reachable.realized hs).1 m 0 e hload, hrecords⟩

end Session

end EffectChain
