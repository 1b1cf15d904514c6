import EffectChain.Proofs.Fallible

/-!
# What outlasts a step of the device

A device never gives out a number twice, and an object keeps what it was made from: a texture its
description, a view its texture and format, a buffer its size. So of any later device it can be said
that what is found there for a number given out before is what was found then, except for texels,
contents and measurements (`Device.Evolves`). It may be gone, but nothing else ever takes its place.

A handle that was returned by a creation therefore stays `Made` of what the creation stored, whether
the object is still alive or not. Records that are built once and used in later frames are described
in these terms, independently of who releases what in between.
-/

namespace EffectChain

/-! ## What an object keeps -/

/-- Whether one content can be what a command has made of another. -/
def ObjectKind.Alike : {kind : ObjectKind} → kind.Content → kind.Content → Prop
  | .texture, c, c' => c'.desc = c.desc
  | .shaderView, c, c' => c' = c
  | .renderTargetView, c, c' => c' = c
  | .depthStencilView, c, c' => c' = c
  | .sampler, c, c' => c' = c
  | .blendState, c, c' => c' = c
  | .depthStencilState, c, c' => c' = c
  | .shader, c, c' => c' = c
  | .buffer, c, c' => c'.size = c.size
  | .query, c, c' => c'.kind = c.kind

namespace ObjectKind.Alike

protected theorem refl : {kind : ObjectKind} → (c : kind.Content) → Alike c c
  | .texture, _ | .shaderView, _ | .renderTargetView, _ | .depthStencilView, _ | .sampler, _
  | .blendState, _ | .depthStencilState, _ | .shader, _ | .buffer, _ | .query, _ => rfl

protected theorem trans : {kind : ObjectKind} → {a b c : kind.Content} → Alike a b → Alike b c →
    Alike a c
  | .texture, _, _, _, hab, hbc | .shaderView, _, _, _, hab, hbc
  | .renderTargetView, _, _, _, hab, hbc | .depthStencilView, _, _, _, hab, hbc
  | .sampler, _, _, _, hab, hbc | .blendState, _, _, _, hab, hbc
  | .depthStencilState, _, _, _, hab, hbc | .shader, _, _, _, hab, hbc
  | .buffer, _, _, _, hab, hbc | .query, _, _, _, hab, hbc => Eq.trans hbc hab

end ObjectKind.Alike

open ObjectKind (Alike)

namespace Device

/-! ## What is found after a step -/

theorem get?_release (d : Device) (refs : List ObjectRef) {kind : ObjectKind} (h : Handle kind) :
    (d.release refs).get? h = if h.ref ∈ refs then none else d.get? h :=
  Store.get?_erase d.objects refs h

theorem get?_create (d : Device) {kind : ObjectKind}
    (content : Device → Except DeviceError kind.Content) {kind' : ObjectKind} {h : Handle kind'}
    (hid : h.id ≤ d.lastId) : (Device.create kind content d).2.get? h = d.get? h := by
  rcases hrun : Device.create kind content d with ⟨e | h', d'⟩
  · obtain rfl := create_eq_error hrun
    rfl
  · obtain ⟨refusals, c, -, rfl, rfl⟩ := create_eq_ok hrun
    refine Store.get?_insert_of_ne _ _ _ _ fun heq ↦ ?_
    have hid' : d.lastId + 1 = h.id := congrArg ObjectRef.id heq
    omega

theorem get?_modify_of_ne (d : Device) {kind kind' : ObjectKind} {h : Handle kind}
    {h' : Handle kind'} (f : kind.Content → kind.Content) (hne : h.ref ≠ h'.ref) :
    (d.modify h f).get? h' = d.get? h' :=
  Store.get?_modify_of_ne d.objects h f h' hne

theorem mem_live_of_get? {d : Device} {kind : ObjectKind} {h : Handle kind} {c : kind.Content}
    (hget : d.get? h = some c) : h.ref ∈ d.live :=
  (Store.get?_isSome_iff d.objects h).mp (Option.isSome_of_eq_some hget)

theorem get?_of_mem_live {d : Device} {kind : ObjectKind} {h : Handle kind}
    (hlive : h.ref ∈ d.live) :
    ∃ c, d.get? h = some c :=
  Option.isSome_iff_exists.mp ((Store.get?_isSome_iff d.objects h).mpr hlive)

/-! ## Evolution -/

def Numbered (d : Device) : Prop := ∀ r ∈ d.live, r.id ≤ d.lastId

theorem Numbered.id_le {d : Device} (h : d.Numbered) {kind : ObjectKind} {r : Handle kind}
    {c : kind.Content} (hget : d.get? r = some c) : r.id ≤ d.lastId :=
  h r.ref (mem_live_of_get? hget)

/-- The second device is a later state of the first, as far as the numbers given out by then are
concerned. -/
structure Evolves (d d' : Device) : Prop where
  /-- Numbers are given out in order. -/
  lastId_le : d.lastId ≤ d'.lastId
  /-- Nothing comes alive without a number. -/
  numbered : d.Numbered → d'.Numbered
  /-- What is found later was there before. -/
  get? : ∀ {kind : ObjectKind} {h : Handle kind} {c' : kind.Content}, h.id ≤ d.lastId →
    d'.get? h = some c' → ∃ c, d.get? h = some c ∧ Alike c c'

namespace Evolves

protected theorem refl (d : Device) : d.Evolves d where
  lastId_le := Nat.le_refl _
  numbered h := h
  get? _ hget := ⟨_, hget, Alike.refl _⟩

protected theorem trans {d₁ d₂ d₃ : Device} (h₁₂ : d₁.Evolves d₂) (h₂₃ : d₂.Evolves d₃) :
    d₁.Evolves d₃ where
  lastId_le := Nat.le_trans h₁₂.lastId_le h₂₃.lastId_le
  numbered h := h₂₃.numbered (h₁₂.numbered h)
  get? hid hget := by
    obtain ⟨c₂, hget₂, halike₂⟩ := h₂₃.get? (Nat.le_trans hid h₁₂.lastId_le) hget
    obtain ⟨c₁, hget₁, halike₁⟩ := h₁₂.get? hid hget₂
    exact ⟨c₁, hget₁, halike₁.trans halike₂⟩

instance : Std.Refl Evolves := ⟨Evolves.refl⟩

instance : IsTrans Device Evolves := ⟨fun _ _ _ ↦ Evolves.trans⟩

theorem of_eq {d d' : Device} (objects : d'.objects = d.objects) (lastId : d'.lastId = d.lastId) :
    d.Evolves d' where
  lastId_le := Nat.le_of_eq lastId.symm
  numbered h r hr := by
    rw [live, objects] at hr
    exact lastId ▸ h r hr
  get? {kind} h c' _ hget := by
    have heq : d.get? h = d'.get? h := by
      rw [Device.get?, Device.get?, objects]
    exact ⟨c', heq.trans hget, Alike.refl c'⟩

theorem release (d : Device) (refs : List ObjectRef) : d.Evolves (d.release refs) where
  lastId_le := Nat.le_refl _
  numbered h r hr := by
    rw [live, Device.release, Store.refs_erase] at hr
    exact h r (List.mem_filter.mp hr).1
  get? {kind} h c' _ hget := by
    rw [get?_release] at hget
    split at hget
    · cases hget
    · exact ⟨c', hget, Alike.refl c'⟩

theorem create {kind : ObjectKind} {content : Device → Except DeviceError kind.Content} :
    Steady Evolves (Device.create kind content) := by
  intro d
  have hget {kind' : ObjectKind} {h : Handle kind'} := d.get?_create content (h := h)
  rcases hrun : Device.create kind content d with ⟨e | h, d'⟩
  · obtain rfl := create_eq_error hrun
    exact of_eq rfl rfl
  · rw [hrun] at hget
    obtain ⟨refusals, c, -, rfl, rfl⟩ := create_eq_ok hrun
    refine ⟨Nat.le_succ _, fun hd r hr ↦ ?_, fun hid hget' ↦ ?_⟩
    · rw [live, Store.refs_insert] at hr
      rcases List.mem_cons.mp hr with rfl | hr
      · exact Nat.le_refl _
      · exact Nat.le_succ_of_le (hd r hr)
    · exact ⟨_, (hget hid).symm.trans hget', Alike.refl _⟩

theorem modify (d : Device) {kind : ObjectKind} (h : Handle kind)
    {f : kind.Content → kind.Content} (hf : ∀ c, Alike c (f c)) : d.Evolves (d.modify h f) where
  lastId_le := Nat.le_refl _
  numbered hd := by
    rwa [Numbered, live_modify]
  get? {kind'} h' c' _ hget := by
    by_cases heq : h.ref = h'.ref
    · obtain ⟨rfl, hid⟩ : kind = kind' ∧ h.id = h'.id := by
        simpa [Handle.ref] using heq
      obtain rfl : h = h' := Handle.ref_inj.mp heq
      have hmod : (d.get? h).map f = some c' := (Store.get?_modify_self _ _ _).symm.trans hget
      obtain ⟨c, hc, rfl⟩ := Option.map_eq_some_iff.mp hmod
      exact ⟨c, hc, hf c⟩
    · exact ⟨c', (d.get?_modify_of_ne f heq).symm.trans hget, Alike.refl c'⟩

theorem transfer (d : Device) (target source : Handle .texture) {f : Texture → Texture → Texture}
    (hf : ∀ t s, (f t s).desc = t.desc) : d.Evolves (d.transfer target source f) := by
  rw [Device.transfer]
  split
  · exact Evolves.refl d
  · exact modify d target fun t ↦ hf t _

theorem finishQuery (d : Device) (q : Handle .query) : d.Evolves (d.finishQuery q) := by
  rw [Device.finishQuery]
  split
  · exact Evolves.refl d
  · split
    · exact modify d q fun _ ↦ rfl
    · refine Evolves.trans (modify d q fun query ↦ ?_) (of_eq rfl rfl)
      rfl

theorem apply (d : Device) (c : Command) : d.Evolves (d.apply c) := by
  cases c with
  | updateTexture t data rowPitch => exact modify d t fun c ↦ Texture.desc_upload c data rowPitch
  | updateConstantBuffer b data => exact modify d b fun c ↦ Bytes.size_fit c.size data
  | generateMips view =>
    simp only [Device.apply]
    split
    · exact Evolves.refl d
    · exact modify d _ fun c ↦ Texture.desc_generateMips c
  | copyResource t s => exact transfer d t s Texture.desc_copyFrom
  | resolve t s _ => exact transfer d t s Texture.desc_resolveFrom
  | clearRenderTarget view color =>
    simp only [Device.apply]
    split
    · exact Evolves.refl d
    · exact modify d _ fun c ↦ Texture.desc_fill c _
  | clearStencil view value =>
    simp only [Device.apply]
    split
    · exact Evolves.refl d
    · exact modify d _ fun c ↦ Texture.desc_fillStencil c value
  | draw n => exact of_eq rfl rfl
  | beginQuery q =>
    refine modify d q fun c ↦ ?_
    split <;> rfl
  | endQuery q => exact finishQuery d q
  | _ => exact Evolves.refl d

theorem issue (d : Device) (c : Command) : d.Evolves (d.issue c) :=
  (apply d c).trans (of_eq rfl rfl)

theorem issueAll (d : Device) (cs : List Command) : d.Evolves (d.issueAll cs) := by
  induction cs generalizing d with
  | nil => exact Evolves.refl d
  | cons c cs ih => exact (issue d c).trans (ih (d.issue c))

theorem not_mem_live {d d' : Device} (h : d.Evolves d') {r : ObjectRef} (hid : r.id ≤ d.lastId)
    (hdead : r ∉ d.live) : r ∉ d'.live := by
  intro hmem
  have hsome : (d'.get? (⟨r.id⟩ : Handle r.kind)).isSome := (Store.get?_isSome_iff _ _).mpr hmem
  obtain ⟨c', hc'⟩ := Option.isSome_iff_exists.mp hsome
  obtain ⟨c, hc, -⟩ := h.get? hid hc'
  exact hdead ((Store.get?_isSome_iff d.objects (⟨r.id⟩ : Handle r.kind)).mp
    (Option.isSome_of_eq_some hc))

end Evolves

/-! ## Textures have levels -/

theorem fullLevels_le (desc : TextureDesc) : desc.fullLevels ≤ 32 := by
  have hwidth := desc.width.toNat_lt
  have hheight := desc.height.toNat_lt
  exact (Nat.log2_lt (by omega)).mpr (by omega)

theorem levels_of_make {desc : TextureDesc} {c : Texture} (h : Texture.make desc = .ok c) :
    c.desc.levels ≠ 0 := by
  rw [Texture.make] at h
  generalize hlevels :
    (if desc.levels = 0 then desc.fullLevels else desc.levels.toNat) = levels at h
  have hne : levels ≠ 0 := by
    rw [← hlevels]
    split
    · exact Nat.succ_ne_zero _
    · rename_i hnonzero
      exact fun hzero ↦ hnonzero (UInt32.toNat_inj.mp hzero)
  repeat' split at h
  all_goals cases h
  rename_i hle _
  intro hzero
  have htoNat := congrArg UInt32.toNat hzero
  have hfull := fullLevels_le desc
  rw [UInt32.toNat_ofNat_of_lt' (Nat.lt_of_le_of_lt (show levels ≤ 32 by omega) (by decide))]
    at htoNat
  exact hne htoNat

def Leveled (d : Device) : Prop :=
  ∀ (t : Handle .texture) (c : Texture), d.get? t = some c → c.desc.levels ≠ 0

/-- The device evolves, and what textures are made meanwhile have levels. -/
structure Upholds (d d' : Device) : Prop where
  /-- It evolves. -/
  evolves : d.Evolves d'
  /-- Textures have levels. -/
  leveled : d.Numbered → d.Leveled → d'.Leveled

namespace Upholds

protected theorem refl (d : Device) : d.Upholds d := ⟨Evolves.refl d, fun _ ↦ id⟩

protected theorem trans {d₁ d₂ d₃ : Device} (h₁₂ : d₁.Upholds d₂) (h₂₃ : d₂.Upholds d₃) :
    d₁.Upholds d₃ where
  evolves := h₁₂.evolves.trans h₂₃.evolves
  leveled hd hleveled := h₂₃.leveled (h₁₂.evolves.numbered hd) (h₁₂.leveled hd hleveled)

instance : Std.Refl Upholds := ⟨Upholds.refl⟩

instance : IsTrans Device Upholds := ⟨fun _ _ _ ↦ Upholds.trans⟩

theorem of_lastId_eq {d d' : Device} (h : d.Evolves d') (hlast : d'.lastId = d.lastId) :
    d.Upholds d' where
  evolves := h
  leveled hd hleveled t c' hget := by
    obtain ⟨c, hc, halike⟩ := h.get? (hlast ▸ (h.numbered hd).id_le hget) hget
    rw [show c'.desc = c.desc from halike]
    exact hleveled t c hc

theorem release (d : Device) (refs : List ObjectRef) : d.Upholds (d.release refs) :=
  of_lastId_eq (Evolves.release d refs) rfl

theorem issue (d : Device) (c : Command) : d.Upholds (d.issue c) :=
  of_lastId_eq (Evolves.issue d c) (lastId_apply d c)

theorem issueAll (d : Device) (cs : List Command) : d.Upholds (d.issueAll cs) :=
  of_lastId_eq (Evolves.issueAll d cs) (lastId_issueAll d cs)

theorem create {kind : ObjectKind} {content : Device → Except DeviceError kind.Content}
    (hkind : kind ≠ .texture) : Steady Upholds (Device.create kind content) := by
  intro d
  refine ⟨Evolves.create d, fun _ hleveled t c hget ↦ hleveled t c ?_⟩
  rcases hrun : Device.create kind content d with ⟨e | h, d'⟩ <;> rw [hrun] at hget
  · obtain rfl := create_eq_error hrun
    exact hget
  · obtain ⟨refusals, c₁, -, rfl, rfl⟩ := create_eq_ok hrun
    rw [← hget]
    exact (Store.get?_insert_of_ne _ _ _ _ fun heq ↦ hkind (congrArg ObjectRef.kind heq)).symm

theorem createShaderView (t : Handle .texture) (format : Format) (levels : UInt32) :
    Steady Upholds (Device.createShaderView t format levels) := create nofun

theorem createRenderTargetView (t : Handle .texture) (format : Format) :
    Steady Upholds (Device.createRenderTargetView t format) := create nofun

theorem createDepthStencilView (t : Handle .texture) :
    Steady Upholds (Device.createDepthStencilView t) := create nofun

theorem createTexture (desc : TextureDesc) : Steady Upholds (Device.createTexture desc) := by
  intro d
  refine ⟨Evolves.create d, fun _ hleveled t c hget ↦ ?_⟩
  rcases hrun : Device.createTexture desc d with ⟨e | h, d'⟩ <;> rw [hrun] at hget
  · obtain rfl := create_eq_error hrun
    exact hleveled t c hget
  · obtain ⟨refusals, c₁, hmake, rfl, rfl⟩ := create_eq_ok hrun
    by_cases hnew : (⟨d.lastId + 1⟩ : Handle .texture) = t
    · subst hnew
      cases (Store.get?_insert_self d.objects _ c₁).symm.trans hget
      exact levels_of_make hmake
    · refine hleveled t c ?_
      rw [← hget]
      exact (Store.get?_insert_of_ne _ _ _ _ fun heq ↦ hnew (Handle.ref_inj.mp heq)).symm

end Upholds

/-! ## What a handle was made of -/

/-- The handle was given out for such a content: what is found for it, if anything, is alike. -/
structure Made (d : Device) {kind : ObjectKind} (h : Handle kind) (c : kind.Content) : Prop where
  /-- Its number was given out. -/
  id_le : h.id ≤ d.lastId
  /-- What is found for it is alike. -/
  alike : ∀ {c'}, d.get? h = some c' → Alike c c'

theorem Made.evolves {d d' : Device} {kind : ObjectKind} {h : Handle kind} {c : kind.Content}
    (hmade : d.Made h c) (hevolves : d.Evolves d') : d'.Made h c where
  id_le := Nat.le_trans hmade.id_le hevolves.lastId_le
  alike hget := by
    obtain ⟨c₁, hget₁, halike⟩ := hevolves.get? hmade.id_le hget
    exact (hmade.alike hget₁).trans halike

theorem Made.exists_get? {d : Device} {kind : ObjectKind} {h : Handle kind} {c : kind.Content}
    (hmade : d.Made h c) (hlive : h.ref ∈ d.live) : ∃ c', d.get? h = some c' ∧ Alike c c' := by
  obtain ⟨c', hget⟩ := get?_of_mem_live hlive
  exact ⟨c', hget, hmade.alike hget⟩

/-- What is found for a live handle, if commands leave such contents alone. -/
theorem Made.get? {d : Device} {kind : ObjectKind} {h : Handle kind} {c : kind.Content}
    (hmade : d.Made h c) (hlive : h.ref ∈ d.live)
    (heq : ∀ {x y : kind.Content}, Alike x y → y = x) : d.get? h = some c := by
  obtain ⟨c', hget, halike⟩ := hmade.exists_get? hlive
  exact hget.trans (congrArg some (heq halike))

/-! ## What comes of a creation -/

theorem create_of_refused {kind : ObjectKind} {content : Device → Except DeviceError kind.Content}
    {d : Device} (hrefused : (takeRefusal kind d.refusals).1 = true) :
    create kind content d = (.error (.outOfMemory kind),
      { d with refusals := (takeRefusal kind d.refusals).2 }) := by
  simp only [create, ExceptT.mk, hrefused, if_true]

/-- A creation succeeds if it is not refused and has something to store. -/
theorem create_of_content {kind : ObjectKind} {content : Device → Except DeviceError kind.Content}
    {d : Device} {c : kind.Content} (hrefused : (takeRefusal kind d.refusals).1 = false)
    (hcontent : content { d with refusals := (takeRefusal kind d.refusals).2 } = .ok c) :
    ∃ h d', create kind content d = (.ok h, d') := by
  rcases htake : takeRefusal kind d.refusals with ⟨refused, refusals⟩
  rw [htake] at hrefused hcontent
  obtain rfl : refused = false := hrefused
  have hcontent : content { d with refusals } = .ok c := hcontent
  simp only [create, ExceptT.mk, htake, hcontent]
  exact ⟨_, _, rfl⟩

theorem made_of_create {kind : ObjectKind} {content : Device → Except DeviceError kind.Content}
    {d d' : Device} {h : Handle kind} (run : create kind content d = (.ok h, d')) :
    ∃ refusals c, content { d with refusals } = .ok c ∧ d'.get? h = some c ∧ d'.Made h c := by
  obtain ⟨refusals, c, hc, rfl, rfl⟩ := create_eq_ok run
  have hget : ({ d with
      refusals, lastId := d.lastId + 1
      objects := d.objects.insert ⟨d.lastId + 1⟩ c } : Device).get?
      (⟨d.lastId + 1⟩ : Handle kind) = some c := Store.get?_insert_self _ _ _
  refine ⟨refusals, c, hc, hget, Nat.le_refl _, fun {c'} hget' ↦ ?_⟩
  obtain rfl : c = c' := Option.some.inj (hget.symm.trans hget')
  exact Alike.refl c

end Device

end EffectChain
