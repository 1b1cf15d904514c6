import EffectChain.Proofs.Caches
import EffectChain.Proofs.Ownership.Creation

/-!
# What activation leaves behind

Activation works on the device together with the texture table and the caches, which record what
they hold by themselves. So an account over these assets is about the rest: an effect's shaders,
uniform buffer and queries. A cached state or a new view to draw into a texture is recorded as soon
as it is created, and does not appear in any account.

A view is recorded with the texture of a name, which takes the names of the table to be different.
-/

namespace EffectChain

open Ledger (Balances)

namespace Assets

/-- The references to what the assets record. -/
def recordedRefs (a : Assets) : Multiset ObjectRef :=
  ↑(a.textures.flatMap TableTexture.refs) + ↑a.states.refs

instance : Ledger Assets where
  Balances a refs := (a.textures.map (·.decl.name)).Nodup ∧ a.device.Owns (refs + a.recordedRefs)
  nodup h := (Multiset.nodup_add.mp h.2.nodup).1
  release h := by
    refine ⟨h.1, Device.Owns.release ?_⟩
    rw [← add_assoc]
    exact h.2

theorem balances_iff {a : Assets} {refs : Multiset ObjectRef} :
    Balances a refs ↔ (a.textures.map (·.decl.name)).Nodup ∧
      a.device.Owns (refs + a.recordedRefs) := Iff.rfl

end Assets

/-! ## Actions of the device and of the caches -/

section Actions

variable {α : Type} {before left : Multiset ObjectRef} {after : α → Multiset ObjectRef}

theorem Accounts.onDevice {m : ExceptT EngineError (StateM Device) α}
    (h : Accounts before m after left) : Accounts before (BuildM.onDevice m) after left := by
  intro a others ha
  obtain ⟨hnames, hown⟩ := Assets.balances_iff.mp ha
  rw [add_assoc] at hown
  have hm := h a.device (others + a.recordedRefs) hown
  rw [run_onDevice]
  rcases hr : m a.device with ⟨e | x, d⟩ <;> rw [hr] at hm
  all_goals
    refine Assets.balances_iff.mpr ⟨hnames, ?_⟩
    rw [add_assoc]
    exact hm

open CachedDescriptor (cache withCache)

theorem Assets.balances_withCache {δ : Type} {kind : ObjectKind} [CachedDescriptor δ kind]
    [LawfulCache δ kind] {a : Assets} {d : Device} {c : StateCache δ kind}
    {added others : Multiset ObjectRef} (hnames : (a.textures.map (·.decl.name)).Nodup)
    (hc : (↑c.refs : Multiset ObjectRef) = added + ↑(cache a.states : StateCache δ kind).refs)
    (h : d.Owns (added + (others + a.recordedRefs))) :
    Balances { a with device := d, states := withCache a.states c } others := by
  refine Assets.balances_iff.mpr ⟨hnames, ?_⟩
  have hstates : (↑(withCache a.states c).refs : Multiset ObjectRef) = added + ↑a.states.refs := by
    have hlaw := LawfulCache.refs_withCache a.states c
    rw [hc, add_right_comm] at hlaw
    exact add_right_cancel hlaw
  have hrefs : ({ a with device := d, states := withCache a.states c } : Assets).recordedRefs
      = added + a.recordedRefs := by
    rw [Assets.recordedRefs, hstates, Assets.recordedRefs, add_left_comm]
  rw [hrefs, add_left_comm]
  exact h

theorem accounts_state {δ : Type} {kind : ObjectKind} [DecidableEq δ] [CachedDescriptor δ kind]
    [LawfulCache δ kind] (desc : δ) (wrap : DeviceError → EngineError) :
    Accounts 0 (BuildM.state desc wrap) (fun _ ↦ 0) 0 := by
  refine Accounts.of_balances fun a others ha ↦ ?_
  obtain ⟨hnames, hown⟩ := Assets.balances_iff.mp ha
  obtain ⟨content, hcreate⟩ := LawfulCache.create_eq desc
  rw [run_state]
  rcases (cache a.states).request_cases desc a.device with
    ⟨h, -, hreq⟩ | ⟨h, d, hrun, hreq⟩ | ⟨e, d, hrun, hreq⟩ <;> rw [hreq]
  · refine Assets.balances_withCache hnames (zero_add _).symm ?_
    rwa [zero_add]
  · rw [hcreate] at hrun
    exact Assets.balances_withCache hnames rfl (hown.create_ok hrun)
  · rw [hcreate] at hrun
    refine Assets.balances_withCache hnames (zero_add _).symm ?_
    rw [zero_add]
    exact hown.create_error hrun

end Actions

/-! ## Shaders, uniform buffer and slot tables -/

theorem accounts_createShaders (entryPoints : List EntryPoint) :
    Accounts 0 (createShaders entryPoints) (fun shaders ↦ ↑(shaders.map (·.2.ref))) 0 := by
  induction entryPoints with
  | nil => exact Accounts.pure rfl
  | cons e rest ih =>
    rw [createShaders]
    refine Accounts.acquire accounts_create.named.onDevice fun shader ↦ ?_
    refine ih.add_bind fun shaders ↦ Accounts.pure ?_
    rw [List.map_cons, coe_cons_refs]
    abel

theorem accounts_createUniformBuffer (e : Effect) :
    Accounts 0 (createUniformBuffer e) (fun buffer ↦ ↑(buffer.toList.map Handle.ref)) 0 := by
  rw [createUniformBuffer]
  split
  · exact Accounts.pure rfl
  · refine Accounts.add_bind accounts_create.named.onDevice fun buffer ↦ Accounts.pure ?_
    rw [add_zero]
    rfl

namespace SlotTables

theorem accounts_bind (tables : SlotTables) (s : SamplerDecl) :
    Accounts 0 (tables.bind s) (fun _ ↦ 0) 0 := by
  rw [bind]
  dsimp only
  split
  · rw [throw_bind]
    exact Accounts.throw
  · split
    · rw [throw_bind]
      exact Accounts.throw
    · refine Accounts.get.bind fun a ↦ ?_
      split
      · exact Accounts.throw
      · split
        · exact Accounts.pure rfl
        · exact (accounts_state _ _).bind fun state ↦ Accounts.pure rfl

theorem accounts_bindAll (tables : SlotTables) (samplers : List SamplerDecl) :
    Accounts 0 (tables.bindAll samplers) (fun _ ↦ 0) 0 := by
  induction samplers generalizing tables with
  | nil => exact Accounts.pure rfl
  | cons s rest ih => exact (accounts_bind tables s).bind fun tables ↦ ih tables

end SlotTables

/-! ## Targets -/

/-- The entry of a name is the only one whose objects are replaced. -/
theorem coe_refs_setOwned {textures : List TableTexture} {name : String} {t : TableTexture}
    (hnames : (textures.map (·.decl.name)).Nodup)
    (hfind : textures.find? (fun t ↦ t.decl.name = name) = some t) :
    ∃ rest : Multiset ObjectRef, ↑(textures.flatMap TableTexture.refs) = ↑t.refs + rest ∧
      ∀ o : OwnedTexture, ↑((textures.map fun t ↦
        if t.decl.name = name then { t with owned := some o } else t).flatMap TableTexture.refs)
          = ↑o.refs + rest := by
  induction textures with
  | nil => cases hfind
  | cons u textures ih =>
    obtain ⟨hu, hrest⟩ := List.nodup_cons.mp hnames
    by_cases hname : u.decl.name = name
    · have hut : u = t := by simpa [hname] using hfind
      subst hut
      refine ⟨↑(textures.flatMap TableTexture.refs), by simp, fun o ↦ ?_⟩
      have hothers : (textures.map fun t ↦
          if t.decl.name = name then { t with owned := some o } else t) = textures := by
        refine (List.map_congr_left fun v hv ↦ if_neg fun hvname ↦ hu ?_).trans (List.map_id _)
        exact List.mem_map.mpr ⟨v, hv, hvname.trans hname.symm⟩
      rw [List.map_cons, if_pos hname, hothers, List.flatMap_cons, ← Multiset.coe_add]
      simp [TableTexture.refs]
    · have hfind' : textures.find? (fun t ↦ t.decl.name = name) = some t := by
        simpa [hname] using hfind
      obtain ⟨rest, hold, hnew⟩ := ih hrest hfind'
      refine ⟨↑u.refs + rest, ?_, fun o ↦ ?_⟩
      · rw [List.flatMap_cons, ← Multiset.coe_add, hold, add_left_comm]
      · rw [List.map_cons, if_neg hname, List.flatMap_cons, ← Multiset.coe_add, hnew,
          add_left_comm]

theorem Assets.recordedRefs_setOwned {a : Assets} {name : String} {t : TableTexture}
    (hnames : (a.textures.map (·.decl.name)).Nodup) (hfind : a.texture? name = some t) :
    ∃ rest : Multiset ObjectRef, a.recordedRefs = ↑t.refs + rest ∧
      ∀ d o, (({ a with device := d } : Assets).setOwned name o).recordedRefs = ↑o.refs + rest := by
  obtain ⟨rest, hold, hnew⟩ := coe_refs_setOwned hnames hfind
  refine ⟨rest + ↑a.states.refs, ?_, fun d o ↦ ?_⟩
  · rw [Assets.recordedRefs, hold, add_assoc]
  · rw [← add_assoc, ← hnew o]
    rfl

theorem Assets.names_setOwned (a : Assets) (name : String) (o : OwnedTexture) :
    (a.setOwned name o).textures.map (·.decl.name) = a.textures.map (·.decl.name) := by
  rw [Assets.setOwned, List.map_map]
  refine List.map_congr_left fun t _ ↦ ?_
  simp only [Function.comp_apply]
  split <;> rfl

namespace PassTarget

theorem accounts_ofTexture (place : PassPlace) (gamma : Bool) (name : String) :
    Accounts 0 (ofTexture place gamma name) (fun _ ↦ 0) 0 := by
  refine Accounts.of_balances fun a others ha ↦ ?_
  obtain ⟨hnames, hown⟩ := Assets.balances_iff.mp ha
  rcases ofTexture_cases place gamma name a with
    ⟨-, e, hrun⟩ | ⟨t, o, ⟨hfind, -, howned⟩, hcases⟩
  · rw [hrun]
    exact ha
  · obtain ⟨rest, hold, hnew⟩ := Assets.recordedRefs_setOwned hnames hfind
    have hrefs : t.refs = o.refs := by
      rw [TableTexture.refs, howned]
      simp
    -- to the device, what else the assets record is like any other object
    have hdevice : a.device.Owns (↑o.refs + (others + rest)) := by
      rwa [hold, hrefs, add_left_comm] at hown
    rcases hcases with ⟨e, d, hstep, hrun⟩ | ⟨view, o', d, hstep, hrun⟩ <;> rw [hrun]
    · refine ⟨hnames, ?_⟩
      have hd : d.Owns (↑o.refs + (others + rest)) :=
        (o.accounts_target name gamma).error hdevice hstep
      change d.Owns (others + a.recordedRefs)
      rwa [hold, hrefs, add_left_comm]
    · refine ⟨(Assets.names_setOwned _ name o').symm ▸ hnames, ?_⟩
      have hd : d.Owns (↑o'.refs + (others + rest)) :=
        (o.accounts_target name gamma).ok hdevice hstep
      rwa [hnew, add_left_comm]

theorem accounts_ofTextures (place : PassPlace) (gamma : Bool) (names : List String) :
    Accounts 0 (ofTextures place gamma names) (fun _ ↦ 0) 0 := by
  induction names with
  | nil => exact Accounts.pure rfl
  | cons name rest ih =>
    exact (accounts_ofTexture place gamma name).bind fun target ↦
      ih.bind fun targets ↦ Accounts.pure rfl

theorem accounts_ofPass (scene : Scene) (place : PassPlace) (p : PassDecl) :
    Accounts 0 (ofPass scene place p) (fun _ ↦ 0) 0 := by
  rw [ofPass]
  split
  · exact Accounts.pure rfl
  · exact accounts_ofTextures place p.gammaWrite p.targetNames

end PassTarget

/-! ## Passes, techniques and effects -/

theorem accounts_passShader (objects : EffectObjects) (place : PassPlace) (name : String) :
    Accounts 0 (passShader objects place name) (fun _ ↦ 0) 0 := by
  rw [passShader]
  split
  · exact Accounts.pure rfl
  · exact Accounts.throw

theorem accounts_buildPass (scene : Scene) (objects : EffectObjects) (bindings : List ViewSlot)
    (place : PassPlace) (p : PassDecl) :
    Accounts 0 (buildPass scene objects bindings place p) (fun _ ↦ 0) 0 := by
  rw [buildPass]
  refine (accounts_passShader _ _ _).bind fun vertexShader ↦ ?_
  refine (accounts_passShader _ _ _).bind fun pixelShader ↦ ?_
  dsimp only
  split
  · rw [throw_bind]
    exact Accounts.throw
  · refine (PassTarget.accounts_ofPass _ _ _).bind fun targets ↦ ?_
    refine (accounts_state _ _).bind fun blend ↦ ?_
    refine (accounts_state _ _).bind fun depthStencil ↦ ?_
    exact Accounts.get.bind fun a ↦ Accounts.pure rfl

theorem accounts_buildPasses (scene : Scene) (objects : EffectObjects) (bindings : List ViewSlot)
    (technique : String) (number : Nat) (passes : List PassDecl) :
    Accounts 0 (buildPasses scene objects bindings technique number passes) (fun _ ↦ 0) 0 := by
  induction passes generalizing number with
  | nil => exact Accounts.pure rfl
  | cons p rest ih =>
    exact (accounts_buildPass _ _ _ _ _).bind fun record ↦
      (ih (number + 1)).bind fun records ↦ Accounts.pure rfl

theorem accounts_buildTechnique (scene : Scene) (objects : EffectObjects) (tables : SlotTables)
    (t : Technique) :
    Accounts 0 (buildTechnique scene objects tables t) (fun state ↦ ↑state.refs) 0 := by
  rw [buildTechnique]
  refine Accounts.acquire accounts_timer.named.onDevice fun timer ↦ ?_
  exact (accounts_buildPasses _ _ _ _ _ _).add_bind fun passes ↦
    Accounts.pure (by rw [zero_add, add_zero]; rfl)

/-- The techniques of the effect have no objects before; those of other effects keep theirs. -/
theorem accounts_buildTechniques (scene : Scene) (objects : EffectObjects) (tables : SlotTables)
    (index : Nat) (techniques : List Technique)
    (hbare : ∀ t ∈ techniques, t.effect = index → t.state = none) :
    Accounts ↑(techniques.flatMap Technique.refs)
      (buildTechniques scene objects tables index techniques)
      (fun techniques ↦ ↑(techniques.flatMap Technique.refs))
      ↑(techniques.flatMap Technique.refs) := by
  induction techniques with
  | nil => exact Accounts.pure rfl
  | cons t rest ih =>
    have hrest := ih fun u hu ↦ hbare u (List.mem_cons_of_mem t hu)
    rw [buildTechniques]
    split
    · rename_i hindex
      -- the technique owns nothing yet: a state that it had would be lost with its queries
      have hrefs : t.refs = [] := by
        rw [Technique.refs, hbare t List.mem_cons_self hindex]
        rfl
      rw [List.flatMap_cons, hrefs, List.nil_append]
      refine Accounts.acquire (accounts_buildTechnique _ _ _ _) fun state ↦ ?_
      have hframe := hrest.frame ↑state.refs
      rw [add_comm] at hframe
      refine hframe.bind fun techniques ↦ Accounts.pure ?_
      rw [List.flatMap_cons, ← Multiset.coe_add, add_comm]
      simp [Technique.refs]
    · rw [List.flatMap_cons, ← Multiset.coe_add, add_comm]
      refine (hrest.frame ↑t.refs).bind fun techniques ↦ Accounts.pure ?_
      rw [List.flatMap_cons, ← Multiset.coe_add, add_comm]

theorem accounts_buildEffect (scene : Scene) (index : Nat) (e : Effect)
    (techniques : List Technique) (hbare : ∀ t ∈ techniques, t.effect = index → t.state = none) :
    Accounts ↑(techniques.flatMap Technique.refs) (buildEffect scene index e techniques)
      (fun built ↦ ↑built.1.refs + ↑(built.2.flatMap Technique.refs))
      ↑(techniques.flatMap Technique.refs) := by
  rw [buildEffect]
  refine Accounts.acquire (accounts_createShaders _) fun shaders ↦ ?_
  refine Accounts.acquire (accounts_createUniformBuffer _) fun uniformBuffer ↦ ?_
  refine (SlotTables.accounts_bindAll _ _).add_bind fun tables ↦ ?_
  have hframe := (accounts_buildTechniques scene ⟨shaders, uniformBuffer⟩ tables index techniques
    hbare).frame (↑(uniformBuffer.toList.map Handle.ref) + ↑(shaders.map (·.2.ref)))
  refine Accounts.congr (hframe.bind fun techniques ↦ Accounts.pure ?_) ?_ (fun _ ↦ rfl) ?_
  · rw [EffectObjects.refs, ← Multiset.coe_add]
    abel
  · abel
  · abel

end EffectChain
