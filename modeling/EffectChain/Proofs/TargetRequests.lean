import EffectChain.Proofs.Device.Runs
import EffectChain.Proofs.Recovery.Contents

/-!
# Requests for views to draw into a texture

A texture of the chain's own starts without views to draw into it. A pass asks for one by variant:
it gets the view that was created for the variant, or one is created and clears the texture. Here a
texture is followed from its creation on (`TextureUse`), through any requests, with anything else
being done to the device in between, as long as the objects of the texture are not released. Along
with it goes a list of the views that were granted.

Granted views are alive, and a variant has one at most. So a request is of one of three sorts
(`TextureUse.Answer`). A variant that was granted is granted again with the same view, and the
device does nothing. The first time the device has memory for a variant, the first level of the
texture becomes zeros, and nothing else changes. Until then requests are refused, and no texel
changes.

A variant counts by itself: the first view of one variant zeroes what was drawn through the other
(`TextureUse.zeroed_after_granted`), also where the format has no gamma-encoded variant and both
views are in the same format.
-/

namespace EffectChain

/-! ## Clearing -/

theorem Format.bytesPerTexel_variant (f : Format) (gamma : Bool) :
    (f.variant gamma).bytesPerTexel = f.bytesPerTexel := by
  cases gamma
  · exact f.bytesPerTexel_linear
  · exact f.bytesPerTexel_gamma

theorem Texture.getElem?_zeroed (c : Texture) (level : Nat) : c.zeroed.mips[level]?
    = if level = 0 then c.mips[level]?.map fun a ↦ Bytes.zeros a.size else c.mips[level]? := by
  obtain ⟨desc, mips⟩ := c
  cases level <;> cases mips <;> rfl

namespace Device

variable {d d' : Device} {t : Handle .texture} {format : Format} {view : Handle .renderTargetView}
  {c : Texture}

/-- All textures have the texels that they had. -/
def SameTexels (d d' : Device) : Prop :=
  ∀ (x : Handle .texture) (level : Nat), d'.texels? x level = d.texels? x level

/-- The first level of a texture became zeros. Its other levels and all other textures have the
texels that they had. -/
def Zeroes (d d' : Device) (t : Handle .texture) : Prop :=
  ∀ (x : Handle .texture) (level : Nat), d'.texels? x level =
    if x = t ∧ level = 0 then (d.texels? x level).map fun a ↦ Bytes.zeros a.size
    else d.texels? x level

/-- Whether the device has no memory for the next object of a kind. -/
def refuses (d : Device) (kind : ObjectKind) : Bool := (takeRefusal kind d.refusals).1

/-- A view to draw into a texture that suits it is refused for want of memory, or not at all. -/
theorem createRenderTargetView_cases (hget : d.get? t = some c)
    (hsize : format.bytesPerTexel = c.desc.format.bytesPerTexel)
    (husage : c.desc.usage.renderTarget = true) :
    (d.refuses .renderTargetView = true ∧ ∃ refusals, createRenderTargetView t format d
      = (.error (.outOfMemory .renderTargetView), { d with refusals })) ∨
    (d.refuses .renderTargetView = false ∧
      ∃ view d', createRenderTargetView t format d = (.ok view, d')) := by
  rcases hrefused : d.refuses .renderTargetView
  · have hviewable (refusals : List Refusal) :
        ({ d with refusals } : Device).viewable .renderTargetView t format = .ok c := by
      rw [viewable, show ({ d with refusals } : Device).get? t = some c from hget]
      exact if_pos hsize
    refine Or.inr ⟨rfl, create_of_content (c := ⟨t, format⟩) hrefused ?_⟩
    simp [hviewable, bind, Except.bind, husage]
    rfl
  · exact Or.inl ⟨rfl, _, create_of_refused hrefused⟩

theorem createRenderTargetView_new (run : createRenderTargetView t format d = (.ok view, d'))
    (hd : d.Numbered) : view.ref ∉ d.live ∧ d'.live = view.ref :: d.live ∧
      ∀ x : Handle .texture, d'.get? x = d.get? x := by
  obtain ⟨refusals, c, -, rfl, rfl⟩ := create_eq_ok run
  exact ⟨fun hmem ↦ Nat.not_succ_le_self d.lastId (hd _ hmem), rfl,
    fun x ↦ Store.get?_insert_of_ne _ _ _ _ nofun⟩

/-- **A new view that clears** zeroes the texture behind it. -/
theorem zeroes_of_clear (run : createRenderTargetView t format d = (.ok view, d'))
    (hd : d.Numbered) (hget : d.get? t = some c)
    (hfill : c.fill (Color.transparent.encode format) = c.zeroed) :
    d.Zeroes (d'.issue (.clearRenderTarget view .transparent)) t := by
  obtain ⟨-, -, hsame⟩ := createRenderTargetView_new run hd
  obtain ⟨hview, -⟩ := made_of_createRenderTargetView run
  intro x level
  by_cases hx : x = t
  · subst hx
    have hcleared := get?_clear_self hview .transparent
    rw [hsame, hget, Option.map_some, hfill] at hcleared
    rw [texels?, texels?, hcleared, hget, Option.bind_some, Option.bind_some,
      Texture.getElem?_zeroed]
    simp only [true_and]
  · have hother : t.ref ≠ x.ref := fun heq ↦ hx (Handle.ref_inj.mp heq).symm
    rw [if_neg fun h ↦ hx h.1, texels?, texels?, get?_clear_of_ne hview _ hother, hsame]

/-! ## Operations -/

theorem Run.works_perform (r : Run) (operation : Operation) :
    r.device.Works (fun _ ↦ True) (r.perform operation).device := by
  rcases r.perform_cases operation with ⟨-, -, -, hworks⟩ | ⟨request, h, d, hrun, hperform⟩
  · exact hworks
  · obtain ⟨content, hcreation⟩ := request.exists_creation_eq
    rw [hcreation] at hrun
    rw [hperform]
    exact Steady.run (Works.housekeeping.create content) hrun

theorem Run.live_perform {r : Run} {operation : Operation} {x : ObjectRef}
    (hx : x ∈ r.device.live) (hspares : ∀ refs, operation = .release refs → x ∉ refs) :
    x ∈ (r.perform operation).device.live := by
  cases operation with
  | create request =>
    obtain ⟨content, hcreation⟩ := request.exists_creation_eq
    rcases hrun : request.creation r.device with ⟨e | h, d⟩ <;> rw [perform, hrun] <;>
      rw [hcreation] at hrun
    · obtain rfl := create_eq_error hrun
      exact hx
    · obtain ⟨refusals, c, -, -, rfl⟩ := create_eq_ok hrun
      exact List.mem_cons_of_mem _ hx
  | release refs =>
    change x ∈ (r.device.objects.erase refs).refs
    rw [Store.refs_erase]
    exact List.mem_filter.mpr ⟨hx, by simpa using hspares refs rfl⟩
  | issue c => exact (live_issue r.device c).symm ▸ hx
  | write t level data => exact (live_writeTexels r.device t level data).1.symm ▸ hx
  | failAfter | markInterrupted | advanceFrame | takeLog => exact hx

end Device

/-- A request takes the view that is recorded for the variant, or creates one in the format of the
variant. -/
theorem OwnedTexture.target_eq {o : OwnedTexture} {d : Device} {gamma : Bool} {format : Format}
    (hformat : o.targetFormat? d gamma = some format) (name : String) :
    o.target name gamma d =
      match o.targets.pick gamma with
      | some view => (.ok (view, o), d)
      | none =>
        match Device.createRenderTargetView o.resource format d with
        | (.ok view, d') => (.ok (view, { o with targets := o.targets.set gamma (some view) }),
            d'.issue (.clearRenderTarget view .transparent))
        | (.error cause, d') => (.error (.renderTargetViewCreation name format cause), d') := by
  obtain ⟨desc, hdesc, rfl⟩ := Option.map_eq_some_iff.mp hformat
  rw [target]
  rcases o.targets.pick gamma with _ | view
  · dsimp only
    rw [run_bind, run_get]
    dsimp only
    rw [hdesc]
    dsimp only
    rw [run_bind, run_named]
    rcases Device.createRenderTargetView o.resource
      (if gamma then desc.format.gamma else desc.format.linear) d with ⟨cause | view, d'⟩ <;> rfl
  · rfl

open Device (Run Operation SameTexels)

/-! ## A texture in use -/

/-- A texture of the chain's own on its device, with the views to draw into it that were granted and
the variants they were granted for, the last one first. -/
structure TextureUse where
  /-- The device. -/
  device : Device
  /-- The objects of the texture. -/
  owned : OwnedTexture
  /-- The variants and the views. -/
  granted : List (Bool × Handle .renderTargetView) := []

namespace TextureUse

/-- What can happen to a texture in use. -/
inductive Event
  /-- A view to draw into a variant of the texture is asked for by the name of the texture. -/
  | request (name : String) (gamma : Bool)
  /-- The device is asked for something else. -/
  | perform (operation : Operation)

/-- The event does not release an object of the texture. -/
def Event.Spares (o : OwnedTexture) : Event → Prop
  | .perform (.release refs) => ∀ r ∈ o.refs, r ∉ refs
  | _ => True

def step (s : TextureUse) : Event → TextureUse
  | .request name gamma =>
    match s.owned.target name gamma s.device with
    | (.ok (view, owned), device) => { device, owned, granted := (gamma, view) :: s.granted }
    | (.error _, device) => { s with device }
  | .perform operation => { s with device := (Run.perform { device := s.device } operation).device }

/-- What a declared texture can come to, once it was created on a device. -/
inductive Reachable (t : TextureDecl) : TextureUse → Prop
  /-- The texture was just created, after anything that a device can be asked for. -/
  | create {timing : DeviceTiming} {operations : List Operation} {owned : OwnedTexture}
    {device : Device}
    (run : OwnedTexture.create t ((Run.start timing).performAll operations).device
      = (.ok owned, device)) : Reachable t { device, owned }
  /-- Something happened to it. -/
  | step {s : TextureUse} {event : Event} (hs : Reachable t s) (hspares : event.Spares s.owned) :
    Reachable t (s.step event)

/-- How a request for a view is answered. -/
inductive Answer (t : TextureDecl) (s : TextureUse) (name : String) (gamma : Bool) :
    Except EngineError (Handle .renderTargetView × OwnedTexture) × Device → Prop
  /-- The variant was granted before, always with this view, which is alive. The device does
  nothing. -/
  | repeated {view : Handle .renderTargetView} (hgranted : (gamma, view) ∈ s.granted)
    (honly : ∀ v, (gamma, v) ∈ s.granted → v = view) (hlive : view.ref ∈ s.device.live) :
    Answer t s name gamma (.ok (view, s.owned), s.device)
  /-- The variant is granted for the first time. The view is new, and the first level of the texture
  becomes zeros. -/
  | first {view : Handle .renderTargetView} {d : Device} (hfirst : ∀ v, (gamma, v) ∉ s.granted)
    (hmemory : s.device.refuses .renderTargetView = false) (hnew : view.ref ∉ s.device.live)
    (hlive : view.ref ∈ d.live) (hzeroes : s.device.Zeroes d s.owned.resource) :
    Answer t s name gamma
      (.ok (view, { s.owned with targets := s.owned.targets.set gamma (some view) }), d)
  /-- The variant was not granted before, and the device has no memory for a view. -/
  | refused {d : Device} (hfirst : ∀ v, (gamma, v) ∉ s.granted)
    (hmemory : s.device.refuses .renderTargetView = true) (hsame : s.device.SameTexels d) :
    Answer t s name gamma
      (.error (.renderTargetViewCreation name (t.viewFormat gamma)
        (.outOfMemory .renderTargetView)), d)

/-! ## The invariant -/

/-- What every event preserves. -/
structure Sound (t : TextureDecl) (s : TextureUse) : Prop where
  /-- Objects have numbers. -/
  numbered : s.device.Numbered
  /-- The objects are made for the declaration. -/
  owned : s.owned.Sound s.device t
  /-- The texture is alive. -/
  resource : s.owned.resource.ref ∈ s.device.live
  /-- So are the views to draw into it. -/
  targets : ∀ gamma view, s.owned.targets.pick gamma = some view → view.ref ∈ s.device.live
  /-- They are those that were granted. -/
  granted : ∀ gamma view, (gamma, view) ∈ s.granted ↔ s.owned.targets.pick gamma = some view

variable {t : TextureDecl} {s : TextureUse}

/-- The texture is found, and can be drawn into in the format of every variant. -/
theorem Sound.exists_get? (h : s.Sound t) (gamma : Bool) :
    ∃ c : Texture, s.device.get? s.owned.resource = some c ∧ c.desc.usage.renderTarget = true ∧
      (t.viewFormat gamma).bytesPerTexel = c.desc.format.bytesPerTexel ∧
      s.owned.targetFormat? s.device gamma = some (t.viewFormat gamma) := by
  obtain ⟨c₀, hmake, hmade⟩ := h.owned.made
  obtain ⟨c, hget, halike⟩ := hmade.exists_get? h.resource
  obtain ⟨levels, hdesc⟩ := Texture.desc_of_make hmake
  have hdesc' : c.desc = { t.textureDesc with levels } := Eq.trans halike hdesc
  have hformat : c.desc.format = t.format.deviceFormat := congrArg TextureDesc.format hdesc'
  refine ⟨c, hget, congrArg (fun desc ↦ desc.usage.renderTarget) hdesc', ?_, ?_⟩
  · rw [hformat]
    exact Format.bytesPerTexel_variant _ gamma
  · rw [OwnedTexture.targetFormat?, Device.textureDesc?, hget, Option.map_some, Option.map_some,
      hformat]
    rfl

/-- What was granted, after a view was granted to a variant that had none. -/
theorem Sound.granted_set (h : s.Sound t) {gamma : Bool} (hpick : s.owned.targets.pick gamma = none)
    (view : Handle .renderTargetView) (variant : Bool) (v : Handle .renderTargetView) :
    (variant, v) ∈ (gamma, view) :: s.granted ↔
      (s.owned.targets.set gamma (some view)).pick variant = some v := by
  rw [List.mem_cons, Prod.mk.injEq, h.granted]
  rcases Bool.eq_or_eq_not variant gamma with rfl | rfl
  · rw [Variants.pick_set_self, hpick, Option.some.injEq]
    simp [eq_comm]
  · rw [Variants.pick_set_other]
    simp

/-- A view that is granted to a variant that had none joins those that are alive. -/
theorem Sound.grant (h : s.Sound t) {name : String} {gamma : Bool} {view : Handle .renderTargetView}
    {d : Device} (hpick : s.owned.targets.pick gamma = none)
    (run : s.owned.target name gamma s.device
      = (.ok (view, { s.owned with targets := s.owned.targets.set gamma (some view) }), d))
    (hlive : d.live = view.ref :: s.device.live) :
    Sound t {
      device := d
      owned := { s.owned with targets := s.owned.targets.set gamma (some view) }
      granted := (gamma, view) :: s.granted } := by
  have hevolves := ((s.owned.upholds_target name gamma).run run).evolves
  obtain ⟨-, -, howned⟩ := OwnedTexture.target_eq_ok run
  refine ⟨hevolves.numbered h.numbered, howned t h.owned, ?_, fun variant v hv ↦ ?_,
    h.granted_set hpick view⟩
  · exact hlive ▸ List.mem_cons_of_mem _ h.resource
  · have hgranted := (h.granted_set hpick view variant v).mpr hv
    change v.ref ∈ d.live
    rw [hlive]
    rcases List.mem_cons.mp hgranted with heq | hgranted
    · cases heq
      exact List.mem_cons_self
    · exact List.mem_cons_of_mem _ (h.targets variant v ((h.granted variant v).mp hgranted))

/-- **How requests are answered**, and that the invariant outlasts them. -/
theorem Sound.request (h : s.Sound t) (name : String) (gamma : Bool) :
    s.Answer t name gamma (s.owned.target name gamma s.device) ∧
      (s.step (.request name gamma)).Sound t := by
  obtain ⟨c, hget, husage, hsize, hformat⟩ := h.exists_get? gamma
  have hrun := OwnedTexture.target_eq hformat name
  rcases hpick : s.owned.targets.pick gamma with _ | view <;> rw [hpick] at hrun
  · have hfirst : ∀ v, (gamma, v) ∉ s.granted := fun v hv ↦ by
      cases hpick.symm.trans ((h.granted gamma v).mp hv)
    rcases Device.createRenderTargetView_cases hget hsize husage with
      ⟨hmemory, refusals, hcreate⟩ | ⟨hmemory, view, d', hcreate⟩ <;> rw [hcreate] at hrun
    · rw [step, hrun]
      exact ⟨.refused hfirst hmemory fun _ _ ↦ rfl,
        h.numbered, h.owned.evolves (.of_eq rfl rfl), h.resource, h.targets, h.granted⟩
    · obtain ⟨hnew, hlive, -⟩ := Device.createRenderTargetView_new hcreate h.numbered
      have hlive' := (Device.live_issue d' (.clearRenderTarget view .transparent)).trans hlive
      have hzeroes := Device.zeroes_of_clear hcreate h.numbered hget
        (h.owned.fill_eq_zeroed hformat hget)
      have hsound := h.grant hpick hrun hlive'
      rw [step, hrun]
      exact ⟨.first hfirst hmemory hnew (hlive' ▸ List.mem_cons_self) hzeroes, hsound⟩
  · have hgranted := (h.granted gamma view).mpr hpick
    rw [step, hrun]
    refine ⟨.repeated hgranted (fun v hv ↦ ?_) (h.targets gamma view hpick),
      h.numbered, h.owned, h.resource, h.targets, fun variant v ↦ ?_⟩
    · exact Option.some.inj (((h.granted gamma v).mp hv).symm.trans hpick)
    · rw [List.mem_cons, ← h.granted]
      refine or_iff_right_of_imp fun heq ↦ ?_
      cases heq
      exact hgranted

/-- What else is done to the device leaves the texture and its views there. -/
theorem Sound.perform (h : s.Sound t) {operation : Operation}
    (hspares : Event.Spares s.owned (.perform operation)) :
    (s.step (.perform operation)).Sound t := by
  have hevolves := (Run.works_perform { device := s.device } operation).evolves
  have hlive {x : ObjectRef} (hmem : x ∈ s.owned.refs) (hx : x ∈ s.device.live) :
      x ∈ (Run.perform { device := s.device } operation).device.live := by
    refine Run.live_perform hx ?_
    rintro refs rfl
    exact hspares x hmem
  refine ⟨hevolves.numbered h.numbered, h.owned.evolves hevolves,
    hlive List.mem_cons_self h.resource, fun gamma view hview ↦ ?_, h.granted⟩
  exact hlive (s.owned.mem_refs_of_target hview) (h.targets gamma view hview)

theorem Sound.create {d d' : Device} {o : OwnedTexture} (hd : d.Numbered)
    (run : OwnedTexture.create t d = (.ok o, d')) : Sound t { device := d', owned := o } := by
  have hevolves := ((OwnedTexture.upholds_create t).run run).evolves
  obtain ⟨-, c, hpristine⟩ := OwnedTexture.create_eq_ok run
  have hnone (gamma : Bool) : o.targets.pick gamma = none := by
    rw [hpristine.targets]
    cases gamma <;> rfl
  refine ⟨hevolves.numbered hd, OwnedTexture.sound_of_create run,
    Device.mem_live_of_get? hpristine.get?, fun gamma view hview ↦ ?_, fun gamma view ↦ ?_⟩
  · cases (hnone gamma).symm.trans hview
  · simp [hnone]

theorem Reachable.sound (hs : s.Reachable t) : s.Sound t := by
  induction hs with
  | create run =>
    exact .create ((Run.sound_start _).performAll _).numbered run
  | @step s event _ hspares ih =>
    cases event with
    | request name gamma => exact (ih.request name gamma).2
    | perform operation => exact ih.perform hspares

/-- **Every request for a view is answered** in one of three ways, whatever happened since the
texture was created. The first view of a variant zeroes the first level of the texture. Requests for
a variant that was granted return its view, and like those that are refused they change no texel. -/
theorem Reachable.answer_request (hs : s.Reachable t) (name : String) (gamma : Bool) :
    s.Answer t name gamma (s.owned.target name gamma s.device) :=
  (hs.sound.request name gamma).1

/-- The declaration of a texture of one texel. -/
def canvas : TextureDecl := { name := "canvas" }

def newCanvas : TextureUse where
  device := (OwnedTexture.create canvas (Run.start {}).device).2
  owned := { resource := ⟨1⟩, views := ⟨⟨2⟩, ⟨3⟩⟩ }

/-- The texture after a view to draw into its linear variant was granted and its texel was
written. -/
def paintedCanvas : TextureUse :=
  (newCanvas.step (.request "canvas" false)).step
    (.perform (.write ⟨1⟩ 0 (Bytes.ofList [1, 2, 3, 4])))

theorem reachable_paintedCanvas : paintedCanvas.Reachable canvas := by
  have hrun : OwnedTexture.create canvas ((Run.start {}).performAll []).device
      = (.ok newCanvas.owned, newCanvas.device) := rfl
  exact .step (.step (.create hrun) trivial) trivial

/-- The linear variant is granted again with the view that it has, and the texel stays. The other
variant is granted for the first time. -/
theorem answer_request_paintedCanvas :
    paintedCanvas.Reachable canvas ∧ paintedCanvas.granted = [(false, ⟨4⟩)] ∧
      paintedCanvas.Answer canvas "canvas" false
        (paintedCanvas.owned.target "canvas" false paintedCanvas.device) ∧
      (paintedCanvas.step (.request "canvas" false)).granted = [(false, ⟨4⟩), (false, ⟨4⟩)] ∧
      (paintedCanvas.step (.request "canvas" false)).device.texels? ⟨1⟩ 0
        = some (Bytes.ofList [1, 2, 3, 4]) ∧
      paintedCanvas.Answer canvas "canvas" true
        (paintedCanvas.owned.target "canvas" true paintedCanvas.device) :=
  ⟨reachable_paintedCanvas, by decide +kernel,
    reachable_paintedCanvas.answer_request "canvas" false, by decide +kernel, by decide +kernel,
    reachable_paintedCanvas.answer_request "canvas" true⟩

/-- **Not only the first view zeroes a texture**: the one of the other variant does so again, after
the texture was drawn into. -/
theorem zeroed_after_granted :
    paintedCanvas.Reachable canvas ∧ paintedCanvas.granted = [(false, ⟨4⟩)] ∧
      paintedCanvas.device.texels? ⟨1⟩ 0 = some (Bytes.ofList [1, 2, 3, 4]) ∧
      (paintedCanvas.step (.request "canvas" true)).granted = [(true, ⟨5⟩), (false, ⟨4⟩)] ∧
      (paintedCanvas.step (.request "canvas" true)).device.texels? ⟨1⟩ 0
        = some (Bytes.ofList [0, 0, 0, 0]) ∧
      ¬paintedCanvas.device.SameTexels
        (paintedCanvas.owned.target "canvas" true paintedCanvas.device).2 := by
  refine ⟨reachable_paintedCanvas, by decide +kernel, by decide +kernel, by decide +kernel,
    by decide +kernel, fun hsame ↦ ?_⟩
  exact absurd (hsame ⟨1⟩ 0) (by decide +kernel)

end TextureUse

end EffectChain
