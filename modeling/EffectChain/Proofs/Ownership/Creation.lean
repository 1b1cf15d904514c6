import EffectChain.Proofs.Backbuffer
import EffectChain.Proofs.Ownership.Ledger

/-!
# What creation leaves behind

A timer, the device objects of a texture and the objects for a swapchain are each made of several
parts. If the creation of a part fails, nothing is left of the parts before; if all succeed, what is
alive besides is what `refs` lists, each once. That the list has no duplicates is not assumed: two
variants of a view that are both alive cannot be the same (`Accounts.of_nodup`).

There is one exception. The scene target of a backbuffer counts as created if it differs from the
swapchain's buffer, so a texture that is created to resolve a buffer of the same number is not
listed (`Backbuffer.strays`). This takes a buffer that does not exist yet.
-/

namespace EffectChain

theorem coe_cons_refs (r : ObjectRef) (refs : List ObjectRef) :
    (↑(r :: refs) : Multiset ObjectRef) = ↑[r] + ↑refs := rfl

/-! ## Timers -/

theorem accounts_timer : Accounts 0 Timer.create (fun t ↦ ↑t.refs) 0 := by
  rw [Timer.create]
  refine Accounts.acquire accounts_create fun interval ↦ ?_
  refine Accounts.acquire accounts_create fun opening ↦ ?_
  refine Accounts.add_bind accounts_create fun closing ↦ Accounts.pure ?_
  change (↑[interval.ref, opening.ref, closing.ref] : Multiset ObjectRef) = _
  rw [coe_cons_refs, coe_cons_refs opening.ref]
  abel

/-! ## Variants of a view -/

/-- Two variants that are alive besides each other are different. -/
theorem distinct_refs_of_nodup {kind : ObjectKind} {linear gamma : Handle kind}
    {others : Multiset ObjectRef}
    (h : ((↑[gamma.ref] : Multiset ObjectRef) + (↑[linear.ref] + others)).Nodup) :
    (Variants.mk linear gamma).distinct = [linear, gamma] := by
  have hne : gamma ≠ linear := by
    rintro rfl
    have hdisj := (Multiset.nodup_add.mp h).2.2
    have hmem : gamma.ref ∈ (↑[gamma.ref] : Multiset ObjectRef) := by simp
    exact Multiset.disjoint_left.mp hdisj hmem (Multiset.mem_add.mpr (Or.inl hmem))
  exact if_neg hne

/-! ## Textures -/

namespace OwnedTexture

/-- The references to the views to draw into a texture. -/
def targetRefs (targets : Variants (Option (Handle .renderTargetView))) : List ObjectRef :=
  ([targets.linear, targets.gamma].filterMap id).map Handle.ref

theorem coe_refs (o : OwnedTexture) :
    (↑o.refs : Multiset ObjectRef)
      = ↑[o.resource.ref] + ↑(o.views.distinct.map Handle.ref) + ↑(targetRefs o.targets) := by
  rw [add_assoc, Multiset.coe_add (o.views.distinct.map Handle.ref)]
  rfl

theorem coe_targetRefs_set {targets : Variants (Option (Handle .renderTargetView))} {gamma : Bool}
    (h : targets.pick gamma = none) (view : Handle .renderTargetView) :
    (↑(targetRefs (targets.set gamma (some view))) : Multiset ObjectRef)
      = ↑[view.ref] + ↑(targetRefs targets) := by
  obtain ⟨linear, srgb⟩ := targets
  cases gamma <;> change _ = none at h <;> subst h
  · cases srgb <;> rfl
  · cases linear
    · rfl
    · rw [add_comm]
      rfl

theorem accounts_create (t : TextureDecl) : Accounts 0 (create t) (fun o ↦ ↑o.refs) 0 := by
  rw [create]
  refine Accounts.acquire EffectChain.accounts_create.named fun resource ↦ ?_
  refine Accounts.get.bind fun d ↦ ?_
  refine Accounts.acquire EffectChain.accounts_create.named fun linear ↦ ?_
  dsimp only
  split
  · rw [pure_bind]
    refine Accounts.pure ?_
    rw [coe_refs, Variants.distinct, if_pos rfl]
    change (↑[resource.ref] : Multiset ObjectRef) + ↑[linear.ref] + 0 = _
    abel
  · refine Accounts.add_bind EffectChain.accounts_create.named fun gamma ↦ ?_
    -- both views are alive, so they differ and are listed apart
    refine Accounts.of_nodup fun hnodup ↦ Accounts.pure ?_
    rw [coe_refs, distinct_refs_of_nodup hnodup, List.map_cons, coe_cons_refs]
    change ↑[resource.ref] + (↑[linear.ref] + (↑[gamma.ref] : Multiset ObjectRef)) + 0 = _
    abel

theorem accounts_target (o : OwnedTexture) (name : String) (gamma : Bool) :
    Accounts ↑o.refs (o.target name gamma) (fun r ↦ ↑r.2.refs) ↑o.refs := by
  rw [target]
  split
  · exact Accounts.pure rfl
  · rename_i hpick
    refine Accounts.get.bind fun d ↦ ?_
    split
    · exact Accounts.throw
    · refine Accounts.add_bind EffectChain.accounts_create.named fun view ↦ ?_
      refine (Accounts.modify fun d _ hd ↦ Device.Owns.issue hd _).bind fun _ ↦ Accounts.pure ?_
      change (↑{ o with targets := o.targets.set gamma (some view) }.refs : Multiset ObjectRef) = _
      rw [coe_refs, coe_refs o, coe_targetRefs_set hpick]
      abel

end OwnedTexture

/-! ## Backbuffers -/

namespace Backbuffer

/-- What is created for a swapchain and not listed: the texture to resolve into, if it has the
number of the buffer. -/
def strays (s : Swapchain) (b : Backbuffer) : List ObjectRef :=
  if s.resolves ∧ b.resolved = b.buffer then [b.resolved.ref] else []

theorem accounts_createVariants {kind : ObjectKind} {α : Type} {format : Format}
    {view : Format → Creation (Handle kind)} {rest : Variants (Handle kind) → Creation α}
    {after : α → Multiset ObjectRef} {left : Multiset ObjectRef}
    (hview : ∀ f, Accounts 0 (view f) (fun h ↦ ↑[h.ref]) 0)
    (hrest : ∀ v, Accounts (↑(v.distinct.map Handle.ref) + left) (rest v) after
      (↑(v.distinct.map Handle.ref) + left)) :
    Accounts left (createVariants format view rest) after left := by
  rw [createVariants]
  refine Accounts.acquire (hview _) fun linear ↦ ?_
  split
  · have h := hrest ⟨linear, linear⟩
    rwa [Variants.distinct, if_pos rfl] at h
  · refine Accounts.acquire (hview _) fun gamma ↦ Accounts.of_nodup fun hnodup ↦ ?_
    have h := hrest ⟨linear, gamma⟩
    rw [distinct_refs_of_nodup hnodup] at h
    have heq : (↑([linear, gamma].map Handle.ref) : Multiset ObjectRef) + left
        = ↑[gamma.ref] + (↑[linear.ref] + left) := by
      rw [List.map_cons, List.map_cons, List.map_nil, coe_cons_refs]
      abel
    exact h.congr heq (fun _ ↦ rfl) heq

/-- What is created for the scene target. -/
def created (s : Swapchain) (resolved : Handle .texture) : List ObjectRef :=
  if s.resolves then [resolved.ref] else []

theorem accounts_createResolved {s : Swapchain} {α : Type} {rest : Handle .texture → Creation α}
    {after : α → Multiset ObjectRef}
    (hrest : ∀ resolved, (¬s.resolves → resolved = s.buffer) →
      Accounts ↑(created s resolved) (rest resolved) after ↑(created s resolved)) :
    Accounts 0 (createResolved s rest) after 0 := by
  rw [createResolved]
  split
  · rename_i hcond
    have hres : s.resolves := hcond
    refine Accounts.acquire EffectChain.accounts_create.named fun resolved ↦ ?_
    have h := hrest resolved fun hnot ↦ absurd hres hnot
    rw [created, if_pos hres] at h
    rwa [add_zero]
  · rename_i hcond
    have hres : ¬s.resolves := hcond
    have h := hrest s.buffer fun _ ↦ rfl
    rwa [created, if_neg hres] at h

theorem coe_refs (b : Backbuffer) :
    (↑b.refs : Multiset ObjectRef)
      = ↑(if b.needsResolve then [b.resolved.ref] else []) + (↑[b.copy.ref]
        + (↑(b.views.distinct.map Handle.ref) + (↑(b.targets.distinct.map Handle.ref)
          + (↑[b.stencil.ref] + ↑[b.stencilView.ref])))) := by
  have hstencil : (↑[b.stencil.ref, b.stencilView.ref] : Multiset ObjectRef)
      = ↑[b.stencil.ref] + ↑[b.stencilView.ref] := rfl
  rw [← hstencil, Multiset.coe_add, Multiset.coe_add, Multiset.coe_add, Multiset.coe_add,
    ← List.append_assoc (b.views.distinct.map Handle.ref)]
  rfl

theorem strays_add_resolved {s : Swapchain} {b : Backbuffer}
    (hbuffer : ¬s.resolves → b.resolved = b.buffer) :
    (↑(b.strays s) : Multiset ObjectRef) + ↑(if b.needsResolve then [b.resolved.ref] else [])
      = ↑(created s b.resolved) := by
  rw [strays, created, needsResolve]
  by_cases hres : s.resolves <;> by_cases heq : b.resolved = b.buffer
  · simp [hres, heq]
  · simp [hres, heq]
  · simp [hres, heq]
  · exact absurd (hbuffer hres) heq

theorem accounts_create (s : Swapchain) :
    Accounts 0 (create s) (fun b ↦ ↑(b.strays s) + ↑b.refs) 0 := by
  rw [create]
  refine accounts_createResolved fun resolved hbuffer ↦ ?_
  refine Accounts.acquire EffectChain.accounts_create.named fun copy ↦ ?_
  refine accounts_createVariants (fun _ ↦ EffectChain.accounts_create.named) fun views ↦ ?_
  refine accounts_createVariants (fun _ ↦ EffectChain.accounts_create.named) fun targets ↦ ?_
  refine Accounts.acquire EffectChain.accounts_create.named fun stencil ↦ ?_
  refine Accounts.add_bind EffectChain.accounts_create.named fun stencilView ↦ ?_
  refine Accounts.pure ?_
  rw [coe_refs, ← add_assoc, strays_add_resolved hbuffer]
  abel

end Backbuffer

end EffectChain
