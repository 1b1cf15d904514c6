import EffectChain.Engine.Activation
import Mathlib.Order.Defs.Unbundled

/-!
# Actions that may fail

Everything that creates objects is an action of `ExceptT ε (StateM σ)`: it may fail, and what it did
to the state before it failed stays done. A run is therefore a pair of an outcome and a state, and a
run of a sequence is taken apart here into the runs of its steps (`run_bind`, `bind_eq_ok`).

A relation between the state before and the state after that holds of every run, whatever its
outcome, is what an action is *steady* for (`Steady`). Such relations compose along a sequence if
they are reflexive and transitive, and a failure further on changes nothing about them.
-/

namespace EffectChain

variable {σ ε α β : Type}

/-! ## Runs -/

theorem run_bind (m : ExceptT ε (StateM σ) α) (k : α → ExceptT ε (StateM σ) β) (s : σ) :
    (m >>= k) s =
      match m s with
      | (.ok a, s) => k a s
      | (.error e, s) => (.error e, s) := by
  -- a sequence runs its continuation on whatever the first step returned
  change ExceptT.bindCont k (m s).1 (m s).2 = _
  rcases m s with ⟨_ | a, s'⟩ <;> rfl

@[simp] theorem run_get (s : σ) : (get : ExceptT ε (StateM σ) σ) s = (.ok s, s) := rfl

@[simp] theorem throw_bind (e : ε) (k : α → ExceptT ε (StateM σ) β) :
    (throw e >>= k) = throw e := by
  funext s
  rw [run_bind]
  rfl

theorem run_keeping [HasDevice σ] (refs : List ObjectRef) (m : ExceptT ε (StateM σ) α) (s : σ) :
    keeping refs m s =
      match m s with
      | (.ok a, s) => (.ok a, s)
      | (.error e, s) => (.error e, HasDevice.mapDevice (fun d ↦ d.release refs) s) := rfl

theorem run_named (m : DeviceM α) (wrap : DeviceError → ε) (d : Device) :
    m.named wrap d =
      match m d with
      | (.ok a, d) => (.ok a, d)
      | (.error e, d) => (.error (wrap e), d) := rfl

theorem run_onDevice (m : ExceptT EngineError (StateM Device) α) (s : Assets) :
    BuildM.onDevice m s = ((m s.device).1, { s with device := (m s.device).2 }) := rfl

open CachedDescriptor (cache withCache) in
theorem run_state {δ : Type} {kind : ObjectKind} [DecidableEq δ] [CachedDescriptor δ kind]
    (desc : δ) (wrap : DeviceError → EngineError) (a : Assets) :
    BuildM.state desc wrap a =
      match (cache a.states).request desc a.device with
      | (outcome, c, d) =>
        (outcome.mapError wrap, { a with device := d, states := withCache a.states c }) := rfl

theorem bind_eq_ok {m : ExceptT ε (StateM σ) α} {k : α → ExceptT ε (StateM σ) β} {s s' : σ} {b : β}
    (h : (m >>= k) s = (.ok b, s')) : ∃ a s₁, m s = (.ok a, s₁) ∧ k a s₁ = (.ok b, s') := by
  rw [run_bind] at h
  rcases hm : m s with ⟨e | a, s₁⟩ <;> rw [hm] at h
  · cases h
  · exact ⟨a, s₁, rfl, h⟩

theorem keeping_eq_ok [HasDevice σ] {refs : List ObjectRef} {m : ExceptT ε (StateM σ) α} {s s' : σ}
    {a : α} (h : keeping refs m s = (.ok a, s')) : m s = (.ok a, s') := by
  rw [run_keeping] at h
  rcases hm : m s with ⟨e | a, s₁⟩ <;> rw [hm] at h
  · cases h
  · exact h

theorem named_eq_ok {m : DeviceM α} {wrap : DeviceError → ε} {d d' : Device} {a : α}
    (h : m.named wrap d = (.ok a, d')) : m d = (.ok a, d') := by
  rw [run_named] at h
  rcases hm : m d with ⟨e | a, d₁⟩ <;> rw [hm] at h
  · cases h
  · cases h
    rfl

theorem onDevice_eq_ok {m : ExceptT EngineError (StateM Device) α} {a a' : Assets} {x : α}
    (h : BuildM.onDevice m a = (.ok x, a')) :
    ∃ d, m a.device = (.ok x, d) ∧ a' = { a with device := d } := by
  rw [run_onDevice] at h
  rcases hm : m a.device with ⟨e | y, d⟩ <;> rw [hm] at h <;> cases h
  exact ⟨d, rfl, rfl⟩

/-- The table has a texture of the name that can be drawn into, with these objects. -/
structure PassTarget.Found (a : Assets) (name : String) (t : TableTexture) (o : OwnedTexture) :
    Prop where
  /-- It is found. -/
  find : a.texture? name = some t
  /-- It is a texture of the chain's own. -/
  reference : t.decl.reference = .owned
  /-- It has device objects. -/
  owned : t.owned = some o

/-- What it takes to draw into a texture of the table: there is no such texture, or its view is
refused, or it is recorded with a view. -/
theorem PassTarget.ofTexture_cases (place : PassPlace) (gamma : Bool) (name : String) (a : Assets) :
    ((∀ t o, ¬Found a name t o) ∧ ∃ e, ofTexture place gamma name a = (.error e, a)) ∨
    ∃ t o, Found a name t o ∧
      ((∃ e d, o.target name gamma a.device = (.error e, d) ∧
        ofTexture place gamma name a = (.error e, { a with device := d })) ∨
      ∃ view o' d, o.target name gamma a.device = (.ok (view, o'), d) ∧
        ofTexture place gamma name a =
          (.ok {
            view, size := (t.decl.width, t.decl.height)
            mipView := if o'.hasMips d then some o'.views.linear else none },
            ({ a with device := d } : Assets).setOwned name o')) := by
  rw [ofTexture, run_bind, run_get]
  dsimp only
  rcases hfind : a.texture? name with _ | t
  · exact Or.inl ⟨fun u o h ↦ (by cases hfind.symm.trans h.find), _, rfl⟩
  · dsimp only
    by_cases href : t.decl.reference = .owned
    · rw [if_neg (not_not_intro href)]
      rcases howned : t.owned with _ | o
      · refine Or.inl ⟨fun u o h ↦ ?_, _, rfl⟩
        cases hfind.symm.trans h.find
        cases howned.symm.trans h.owned
      · refine Or.inr ⟨t, o, ⟨hfind, href, howned⟩, ?_⟩
        dsimp only
        rw [run_bind, run_onDevice]
        rcases hrun : o.target name gamma a.device with ⟨e | ⟨view, o'⟩, d⟩
        · exact Or.inl ⟨e, d, rfl, rfl⟩
        · exact Or.inr ⟨view, o', d, rfl, rfl⟩
    · rw [if_pos href, throw_bind]
      refine Or.inl ⟨fun u o h ↦ href ?_, _, rfl⟩
      cases hfind.symm.trans h.find
      exact h.reference

/-- There are slots for the sampler, and this is what it reads. -/
structure SlotTables.Binds (a : Assets) (s : SamplerDecl) (slot : ViewSlot) : Prop where
  /-- Its sampler slot exists. -/
  sampler : s.binding.toNat < maxSamplerSlots
  /-- Its texture slot exists. -/
  texture : s.textureBinding.toNat < maxTextureSlots
  /-- It reads a texture that is loaded. -/
  slot : slotOf a s = some slot

/-- What binding a sampler can do: it cannot be bound, or its slot is taken and only the texture is
bound, or its state is requested. -/
theorem SlotTables.bind_cases (tables : SlotTables) (s : SamplerDecl) (a : Assets) :
    ((∀ slot, ¬Binds a s slot) ∧ ∃ e, tables.bind s a = (.error e, a)) ∨
    ∃ slot, Binds a s slot ∧
      ((tables.samplers[s.binding.toNat]?.join).isSome = true ∧
        tables.bind s a = (.ok { tables with
          bindings := tables.bindings.set s.textureBinding.toNat slot }, a) ∨
      (tables.samplers[s.binding.toNat]?.join).isSome = false ∧ tables.bind s a =
        match BuildM.state (SamplerDesc.ofDecl s)
            (.samplerCreation s.name (SamplerDesc.ofDecl s)) a with
        | (.ok state, a') => (.ok {
            samplers := tables.samplers.set s.binding.toNat (some state)
            bindings := tables.bindings.set s.textureBinding.toNat slot }, a')
        | (.error e, a') => (.error e, a')) := by
  rw [SlotTables.bind]
  dsimp only
  -- the sampler slot is checked first, then the texture slot, then what the texture stands for
  by_cases hsampler : s.binding.toNat < maxSamplerSlots
  · rw [if_neg (Nat.not_le.mpr hsampler)]
    by_cases htexture : s.textureBinding.toNat < maxTextureSlots
    · rw [if_neg (Nat.not_le.mpr htexture), run_bind, run_get]
      dsimp only
      rcases hslot : slotOf a s with _ | slot
      · exact Or.inl ⟨fun slot h ↦ (by cases hslot.symm.trans h.slot), _, rfl⟩
      · refine Or.inr ⟨slot, ⟨hsampler, htexture, hslot⟩, ?_⟩
        dsimp only
        rcases htaken : (tables.samplers[s.binding.toNat]?.join).isSome with _ | _
        · refine Or.inr ⟨rfl, ?_⟩
          rw [if_neg Bool.false_ne_true, run_bind]
          rcases BuildM.state (SamplerDesc.ofDecl s)
            (.samplerCreation s.name (SamplerDesc.ofDecl s)) a with ⟨e | state, a'⟩ <;> rfl
        · exact Or.inl ⟨rfl, rfl⟩
    · rw [if_pos (Nat.le_of_not_lt htexture), throw_bind]
      exact Or.inl ⟨fun slot h ↦ htexture h.texture, _, rfl⟩
  · rw [if_pos (Nat.le_of_not_lt hsampler), throw_bind]
    exact Or.inl ⟨fun slot h ↦ hsampler h.sampler, _, rfl⟩

/-! ## Steady actions -/

/-- Whatever comes of the action, the states before and after it are related. -/
def Steady (R : σ → σ → Prop) (m : ExceptT ε (StateM σ) α) : Prop := ∀ s, R s (m s).2

namespace Steady

variable {R : σ → σ → Prop} {m : ExceptT ε (StateM σ) α}

theorem run (hm : Steady R m) {s s' : σ} {outcome : Except ε α} (h : m s = (outcome, s')) :
    R s s' := by
  have hs := hm s
  rwa [h] at hs

theorem imp {R' : σ → σ → Prop} (hm : Steady R m) (h : ∀ {s s'}, R s s' → R' s s') :
    Steady R' m :=
  fun s ↦ h (hm s)

protected theorem pure [Std.Refl R] (a : α) : Steady R (pure a : ExceptT ε (StateM σ) α) :=
  fun s ↦ refl_of R s

protected theorem throw [Std.Refl R] (e : ε) : Steady R (throw e : ExceptT ε (StateM σ) α) :=
  fun s ↦ refl_of R s

protected theorem get [Std.Refl R] : Steady R (get : ExceptT ε (StateM σ) σ) :=
  fun s ↦ refl_of R s

protected theorem bind [IsTrans σ R] {k : α → ExceptT ε (StateM σ) β} (hm : Steady R m)
    (hk : ∀ a, Steady R (k a)) : Steady R (m >>= k) := by
  intro s
  have h := hm s
  rw [run_bind]
  rcases hs : m s with ⟨e | a, s₁⟩ <;> rw [hs] at h
  · exact h
  · exact trans_of R h (hk a s₁)

protected theorem keeping [HasDevice σ] [IsTrans σ R] {refs : List ObjectRef} (hm : Steady R m)
    (hrel : ∀ s, R s (HasDevice.mapDevice (fun d ↦ d.release refs) s)) :
    Steady R (keeping refs m) := by
  intro s
  have h := hm s
  rw [run_keeping]
  rcases hs : m s with ⟨e | a, s₁⟩ <;> rw [hs] at h
  · exact trans_of R h (hrel s₁)
  · exact h

protected theorem named {R : Device → Device → Prop} {m : DeviceM α} {wrap : DeviceError → ε}
    (hm : Steady R m) : Steady R (m.named wrap) := by
  intro d
  have h := hm d
  rw [run_named]
  rcases hs : m d with ⟨e | a, d₁⟩ <;> rw [hs] at h <;> exact h

end Steady

end EffectChain
