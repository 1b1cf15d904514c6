import EffectChain.Proofs.Created

/-!
# Nothing but a refusal

The host can have a creation refused, and each refusal strikes once: the list of those to come gets
shorter by it. An action that has nothing else to fear *yields*: from every state with a property,
it succeeds, or fewer refusals are to come (`Yields`). Such actions compose, and if no refusal is to
come they succeed.

What is created of a declared texture, of shaders with code, of uniform data or for a timer is
valid, so these creations yield (`yields_materialize`, `yields_createShaders`).
-/

namespace EffectChain

def Device.pending (d : Device) : Nat := d.refusals.length

/-! ## Actions that yield -/

/-- From every state with the property, whatever comes of the action, the property holds again, and
it returns such a value, or fails with fewer refusals to come. -/
def Yields {σ ε α : Type} [HasDevice σ] (inv : σ → Prop) (m : ExceptT ε (StateM σ) α)
    (after : α → Prop) : Prop :=
  ∀ s, inv s → inv (m s).2 ∧
    match (m s).1 with
    | .ok x => after x ∧ (HasDevice.device (m s).2).pending ≤ (HasDevice.device s).pending
    | .error _ => (HasDevice.device (m s).2).pending < (HasDevice.device s).pending

namespace Yields

variable {σ ε α β : Type} [HasDevice σ] {inv : σ → Prop} {m : ExceptT ε (StateM σ) α}
  {after : α → Prop}

theorem ok (h : Yields inv m after) {s s' : σ} {x : α} (hs : inv s) (run : m s = (.ok x, s')) :
    inv s' ∧ after x ∧ (HasDevice.device s').pending ≤ (HasDevice.device s).pending := by
  have hm := h s hs
  rwa [run] at hm

theorem error (h : Yields inv m after) {s s' : σ} {e : ε} (hs : inv s)
    (run : m s = (.error e, s')) :
    inv s' ∧ (HasDevice.device s').pending < (HasDevice.device s).pending := by
  have hm := h s hs
  rwa [run] at hm

protected theorem pure {x : α} (h : after x) :
    Yields inv (pure x : ExceptT ε (StateM σ) α) after :=
  fun _ hs ↦ ⟨hs, h, Nat.le_refl _⟩

protected theorem bind {k : α → ExceptT ε (StateM σ) β} {after' : β → Prop}
    (hm : Yields inv m after) (hk : ∀ x, after x → Yields inv (k x) after') :
    Yields inv (m >>= k) after' := by
  intro s hs
  rw [run_bind]
  rcases hrun : m s with ⟨e | x, s₁⟩
  · exact hm.error hs hrun
  · obtain ⟨hs₁, hafter, hle⟩ := hm.ok hs hrun
    dsimp only
    rcases hrest : k x s₁ with ⟨e | y, s₂⟩
    · obtain ⟨hs₂, hlt⟩ := (hk x hafter).error hs₁ hrest
      exact ⟨hs₂, hlt.trans_le hle⟩
    · obtain ⟨hs₂, hafter', hle'⟩ := (hk x hafter).ok hs₁ hrest
      exact ⟨hs₂, hafter', hle'.trans hle⟩

protected theorem get : Yields inv (get : ExceptT ε (StateM σ) σ) inv :=
  fun _ hs ↦ ⟨hs, hs, Nat.le_refl _⟩

/-- What is released after a failure is not what the property is about. -/
protected theorem keeping {refs : List ObjectRef} (hm : Yields inv m after)
    (hrelease : ∀ s, inv s → inv (HasDevice.mapDevice (fun d ↦ d.release refs) s) ∧
      (HasDevice.device (HasDevice.mapDevice (fun d ↦ d.release refs) s)).pending
        = (HasDevice.device s).pending) : Yields inv (keeping refs m) after := by
  intro s hs
  rw [run_keeping]
  rcases hrun : m s with ⟨e | x, s₁⟩
  · obtain ⟨hs₁, hlt⟩ := hm.error hs hrun
    obtain ⟨hs₂, heq⟩ := hrelease s₁ hs₁
    exact ⟨hs₂, heq ▸ hlt⟩
  · exact hm.ok hs hrun

/-- The rest may rely on what is acquired first, which is released if the rest fails. -/
theorem acquire {k : α → ExceptT ε (StateM σ) β} {refs : α → List ObjectRef} {after' : β → Prop}
    (inv' : α → σ → Prop) (hm : Yields inv m after)
    (hinto : ∀ {s s' x}, inv s → m s = (.ok x, s') → inv' x s')
    (hk : ∀ x, Yields (inv' x) (k x) after') (hback : ∀ {x s}, inv' x s → inv s)
    (hrelease : ∀ {x s}, inv' x s → inv (HasDevice.mapDevice (fun d ↦ d.release (refs x)) s) ∧
      (HasDevice.device (HasDevice.mapDevice (fun d ↦ d.release (refs x)) s)).pending
        = (HasDevice.device s).pending) :
    Yields inv (m >>= fun x ↦ EffectChain.keeping (refs x) (k x)) after' := by
  intro s hs
  rw [run_bind]
  rcases hrun : m s with ⟨e | x, s₁⟩
  · exact hm.error hs hrun
  · obtain ⟨-, -, hle⟩ := hm.ok hs hrun
    dsimp only
    rw [run_keeping]
    rcases hrest : k x s₁ with ⟨e | y, s₂⟩
    · obtain ⟨hs₂, hlt⟩ := (hk x).error (hinto hs hrun) hrest
      obtain ⟨hinv, heq⟩ := hrelease hs₂
      exact ⟨hinv, heq ▸ hlt.trans_le hle⟩
    · obtain ⟨hs₂, hafter', hle'⟩ := (hk x).ok (hinto hs hrun) hrest
      exact ⟨hback hs₂, hafter', hle'.trans hle⟩

protected theorem named {inv : Device → Prop} {m : DeviceM α} {wrap : DeviceError → ε}
    (hm : Yields inv m after) : Yields inv (m.named wrap) after := by
  intro d hd
  rw [run_named]
  rcases hrun : m d with ⟨e | x, d₁⟩
  · exact hm.error hd hrun
  · exact hm.ok hd hrun

end Yields

/-! ## Creations -/

namespace Device

theorem pending_issue (d : Device) (c : Command) : (d.issue c).pending = d.pending := by
  cases c <;> simp only [issue, apply, transfer, finishQuery] <;> repeat' split
  all_goals rfl

theorem length_takeRefusal (kind : ObjectKind) (refusals : List Refusal) :
    (takeRefusal kind refusals).2.length + (takeRefusal kind refusals).1.toNat
      = refusals.length := by
  induction refusals with
  | nil => rfl
  | cons r rest ih =>
    rw [takeRefusal]
    split
    · split <;> rfl
    · dsimp only
      rw [List.length_cons, List.length_cons, ← ih]
      omega

/-- **A creation whose content is valid yields.** -/
theorem yields_create {inv : Device → Prop} {kind : ObjectKind}
    {content : Device → Except DeviceError kind.Content}
    (hcontent : ∀ d, inv d → ∀ refusals, ∃ x, content { d with refusals } = .ok x)
    (hinv : ∀ d, inv d → inv (create kind content d).2) :
    Yields inv (create kind content) fun _ ↦ True := by
  intro d hd
  refine ⟨hinv d hd, ?_⟩
  have hlength := length_takeRefusal kind d.refusals
  obtain ⟨x, hx⟩ := hcontent d hd (takeRefusal kind d.refusals).2
  simp only [create, ExceptT.mk]
  rcases htake : takeRefusal kind d.refusals with ⟨refused, refusals⟩
  rw [htake] at hlength hx
  dsimp only at hlength hx ⊢
  rcases refused with _ | _
  · rw [if_neg Bool.false_ne_true, hx]
    exact ⟨trivial, hlength.le⟩
  · rw [if_pos rfl]
    exact Nat.lt_of_succ_le hlength.le

theorem yields_create_const {kind : ObjectKind} {content : Except DeviceError kind.Content}
    {x : kind.Content} (hcontent : content = .ok x) :
    Yields (fun _ ↦ True) (create kind fun _ ↦ content) fun _ ↦ True :=
  yields_create (fun _ _ _ ↦ ⟨x, hcontent⟩) fun _ _ ↦ trivial

end Device

theorem Timer.yields_create : Yields (fun _ ↦ True) Timer.create fun _ ↦ True := by
  have hrelease {refs : List ObjectRef} (d : Device) (_ : True) : True ∧
      (d.release refs).pending = d.pending := ⟨trivial, rfl⟩
  rw [Timer.create]
  refine (Device.yields_create_const rfl).bind fun interval _ ↦ ?_
  refine Yields.keeping ?_ hrelease
  refine (Device.yields_create_const rfl).bind fun opening _ ↦ ?_
  refine Yields.keeping ?_ hrelease
  exact (Device.yields_create_const rfl).bind fun closing _ ↦ Yields.pure trivial

/-! ## Views -/

namespace Device

variable {t : Handle .texture} {desc : TextureDesc} {format : Format}

/-- The texture of the description is there. -/
def Stands (d : Device) (t : Handle .texture) (desc : TextureDesc) : Prop :=
  t.id ≤ d.lastId ∧ d.textureDesc? t = some desc

theorem Stands.create {d : Device} (h : d.Stands t desc) {kind : ObjectKind}
    (content : Device → Except DeviceError kind.Content) :
    (Device.create kind content d).2.Stands t desc := by
  refine ⟨h.1.trans (Evolves.create d).lastId_le, ?_⟩
  rw [textureDesc?, d.get?_create content h.1]
  exact h.2

theorem Stands.release {d : Device} (h : d.Stands t desc) {refs : List ObjectRef}
    (hrefs : ∀ r ∈ refs, r.kind ≠ .texture) : (d.release refs).Stands t desc := by
  refine ⟨h.1, ?_⟩
  rw [textureDesc?, get?_release, if_neg fun hmem ↦ hrefs _ hmem rfl]
  exact h.2

theorem Stands.viewable {d : Device} (h : d.Stands t desc) (kind : ObjectKind)
    (hformat : format.bytesPerTexel = desc.format.bytesPerTexel) (refusals : List Refusal) :
    ∃ c : Texture, c.desc = desc ∧
      ({ d with refusals } : Device).viewable kind t format = .ok c := by
  obtain ⟨c, hget, rfl⟩ := Option.map_eq_some_iff.mp h.2
  refine ⟨c, rfl, ?_⟩
  rw [Device.viewable, show ({ d with refusals } : Device).get? t = some c from hget]
  exact if_pos hformat

theorem yields_createShaderView (hformat : format.bytesPerTexel = desc.format.bytesPerTexel)
    (hreadable : desc.usage.shaderResource = true) (hlevels : desc.levels ≠ 0) :
    Yields (·.Stands t desc) (createShaderView t format desc.levels) fun _ ↦ True := by
  refine yields_create (fun d hd refusals ↦ ?_) fun d hd ↦ hd.create _
  obtain ⟨c, rfl, hviewable⟩ := hd.viewable .shaderView hformat refusals
  refine ⟨⟨t, format⟩, ?_⟩
  simp [hviewable, bind, Except.bind, hreadable, hlevels]
  rfl

theorem yields_createRenderTargetView (hformat : format.bytesPerTexel = desc.format.bytesPerTexel)
    (hdrawable : desc.usage.renderTarget = true) :
    Yields (·.Stands t desc) (createRenderTargetView t format) fun _ ↦ True := by
  refine yields_create (fun d hd refusals ↦ ?_) fun d hd ↦ hd.create _
  obtain ⟨c, rfl, hviewable⟩ := hd.viewable .renderTargetView hformat refusals
  refine ⟨⟨t, format⟩, ?_⟩
  simp [hviewable, bind, Except.bind, hdrawable]
  rfl

end Device

/-! ## Declared textures -/

/-- **A declared texture that is valid can be created.** -/
theorem OwnedTexture.yields_create {t : TextureDecl} {c : Texture}
    (hmake : Texture.make t.textureDesc = .ok c) :
    Yields (fun _ ↦ True) (create t) fun _ ↦ True := by
  obtain ⟨levels, hdesc⟩ := Texture.desc_of_make hmake
  have hformat : c.desc.format = t.format.deviceFormat := by rw [hdesc]; rfl
  have hreadable : c.desc.usage.shaderResource = true := by rw [hdesc]; rfl
  have hlevels := Device.levels_of_make hmake
  rw [create]
  dsimp only
  refine Yields.acquire (fun resource d ↦ d.Stands resource c.desc)
    (Device.yields_create_const hmake).named (fun {d d' resource} _ run ↦ ?_)
    (fun resource ↦ ?_) (fun _ ↦ trivial) fun _ ↦ ⟨trivial, rfl⟩
  · obtain ⟨_, c', hmake', hget, hmade⟩ := Device.made_of_create (named_eq_ok run)
    obtain rfl : c = c' := Except.ok.inj (hmake.symm.trans hmake')
    exact ⟨hmade.id_le, by rw [Device.textureDesc?, hget]; rfl⟩
  · refine Yields.get.bind fun d hd ↦ ?_
    rw [hd.2]
    dsimp only [Option.elim_some]
    refine (Device.yields_createShaderView ?_ hreadable hlevels).named.bind fun linear _ ↦ ?_
    · rw [hformat, Format.bytesPerTexel_linear]
    refine Yields.keeping ?_ fun d hd ↦ ⟨hd.release (by simp [Handle.ref]), rfl⟩
    split
    · rw [pure_bind]
      exact Yields.pure trivial
    · refine (Device.yields_createShaderView ?_ hreadable hlevels).named.bind fun gamma _ ↦
        Yields.pure trivial
      rw [hformat, Format.bytesPerTexel_gamma]

/-- **An effect's textures can be created** if their declarations are valid. -/
theorem yields_materialize {index : Nat} {table : List TableTexture}
    (hmake : ∀ t ∈ table, t.awaits index = true → ∃ c, Texture.make t.decl.textureDesc = .ok c) :
    Yields (fun _ ↦ True) (materialize index table) fun _ ↦ True := by
  induction table with
  | nil => exact Yields.pure trivial
  | cons t rest ih =>
    obtain ⟨hfirst, hrest⟩ := List.forall_mem_cons.mp hmake
    rw [materialize]
    split
    · rename_i hawaits
      obtain ⟨c, hc⟩ := hfirst hawaits
      refine (OwnedTexture.yields_create hc).bind fun owned _ ↦ ?_
      exact Yields.keeping ((ih hrest).bind fun table _ ↦ Yields.pure trivial) fun _ _ ↦
        ⟨trivial, rfl⟩
    · exact (ih hrest).bind fun table _ ↦ Yields.pure trivial

theorem make_of_materialize {index : Nat} {table table' : List TableTexture} {d d' : Device}
    (run : materialize index table d = (.ok table', d')) {t : TableTexture} (ht : t ∈ table)
    (hawaits : t.awaits index = true) : ∃ c, Texture.make t.decl.textureDesc = .ok c := by
  obtain ⟨t', -, ⟨hnot, -⟩ | ⟨-, o, -, -, -, c, hpristine⟩⟩ :=
    exists_of_forall₂_left (created_of_materialize run) ht
  · cases hnot.symm.trans hawaits
  · exact ⟨c, hpristine.make⟩

end EffectChain
