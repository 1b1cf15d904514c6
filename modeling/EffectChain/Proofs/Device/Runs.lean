import EffectChain.Proofs.Device.Accesses

/-!
# What a device keeps

A device is asked to create objects of ten kinds, to release them, to execute commands, and to
refuse creations that are still to come, in any order and with handles that may be stale or made up.
Some things hold of it all the same. A number is given to one object only, whatever its kind. A
texture has the shape that it was made with. A view, for as long as the texture behind it is alive,
shows texels of the right size and is of a kind that the texture may be used for.

What was asked for is not kept by a device. A run therefore keeps the requests that were granted,
with the numbers that were given (`Device.Run`), and what holds of the device is said in terms of
them (`Device.Run.Consistent`).
-/

namespace EffectChain

/-! ## Requests -/

/-- What a device can be asked to create. The buffers of a swapchain and the depth buffers of an
application are textures. -/
inductive Request
  | texture (desc : TextureDesc)
  | shaderView (texture : Handle .texture) (format : Format) (levels : UInt32)
  | renderTargetView (texture : Handle .texture) (format : Format)
  | depthStencilView (texture : Handle .texture)
  | sampler (desc : SamplerDesc)
  | blendState (desc : BlendDesc)
  | depthStencilState (desc : DepthStencilDesc)
  | shader (stage : ShaderStage) (bytecode : Bytes)
  | buffer (size : Nat)
  | query (kind : QueryKind)

namespace Request

/-- The kind of object that is asked for. -/
def kind : Request → ObjectKind
  | texture _ => .texture
  | shaderView .. => .shaderView
  | renderTargetView .. => .renderTargetView
  | depthStencilView _ => .depthStencilView
  | sampler _ => .sampler
  | blendState _ => .blendState
  | depthStencilState _ => .depthStencilState
  | shader .. => .shader
  | buffer _ => .buffer
  | query _ => .query

def creation : (r : Request) → DeviceM (Handle r.kind)
  | texture desc => Device.createTexture desc
  | shaderView t format levels => Device.createShaderView t format levels
  | renderTargetView t format => Device.createRenderTargetView t format
  | depthStencilView t => Device.createDepthStencilView t
  | sampler desc => Device.createSampler desc
  | blendState desc => Device.createBlendState desc
  | depthStencilState desc => Device.createDepthStencilState desc
  | shader stage bytecode => Device.createShader stage bytecode
  | buffer size => Device.createConstantBuffer size
  | query kind => Device.createQuery kind

theorem exists_creation_eq (r : Request) :
    ∃ content, r.creation = Device.create r.kind content := by
  cases r <;> exact ⟨_, by rw [creation]; rfl⟩

end Request

namespace Device

/-! ## Runs -/

/-- What a device can be asked to do. -/
inductive Operation
  /-- Create an object. -/
  | create (request : Request)
  /-- Release objects. -/
  | release (refs : List ObjectRef)
  /-- Execute a command. -/
  | issue (c : Command)
  /-- Overwrite texels. -/
  | write (texture : Handle .texture) (level : Nat) (data : Bytes)
  /-- Refuse a creation. -/
  | failAfter (kind : ObjectKind) (after : Nat)
  /-- Count the next interval as interrupted. -/
  | markInterrupted
  /-- Move to the next frame. -/
  | advanceFrame
  /-- Give away the log. -/
  | takeLog

/-- A device and the requests that it granted, with the numbers it gave, the last one first. -/
structure Run where
  /-- The device. -/
  device : Device
  /-- The numbers and the requests. -/
  granted : List (Nat × Request) := []

namespace Run

def start (timing : DeviceTiming) : Run := { device := { timing } }

def perform (r : Run) : Operation → Run
  | .create request =>
    match request.creation r.device with
    | (.ok h, device) => { device, granted := (h.id, request) :: r.granted }
    | (.error _, device) => { r with device }
  | .release refs => { r with device := r.device.release refs }
  | .issue c => { r with device := r.device.issue c }
  | .write t level data => { r with device := (r.device.writeTexels t level data).2 }
  | .failAfter kind after => { r with device := r.device.failAfter kind after }
  | .markInterrupted => { r with device := r.device.markInterrupted }
  | .advanceFrame => { r with device := r.device.advanceFrame }
  | .takeLog => { r with device := r.device.takeLog.2 }

def performAll (r : Run) (operations : List Operation) : Run := operations.foldl perform r

end Run

/-! ## Views -/

end Device

namespace ObjectKind

def behind? : {kind : ObjectKind} → kind.Content → Option (Handle .texture)
  | .shaderView, view => some view.texture
  | .renderTargetView, view => some view.texture
  | .depthStencilView, t => some t
  | _, _ => none

/-- A texture of the description can be behind the view: its texels have the size that the view
shows, and it has the usage that views of the kind need. -/
def Suits : {kind : ObjectKind} → kind.Content → TextureDesc → Prop
  | .shaderView, view, desc =>
    view.format.bytesPerTexel = desc.format.bytesPerTexel ∧ desc.usage.shaderResource = true
  | .renderTargetView, view, desc =>
    view.format.bytesPerTexel = desc.format.bytesPerTexel ∧ desc.usage.renderTarget = true
  | .depthStencilView, _, desc => desc.usage.depthStencil = true
  | _, _, _ => True

theorem Alike.eq_of_behind? {kind : ObjectKind} {content content' : kind.Content}
    (h : Alike content content') {t : Handle .texture} (ht : behind? content' = some t) :
    content' = content := by
  cases kind with
  | shaderView | renderTargetView | depthStencilView => exact h
  | _ => cases ht

end ObjectKind

open ObjectKind (behind? Suits)

namespace Device

variable {d d' : Device}

/-- The texture of a view is alive and has texels of the size that the view shows. -/
theorem viewable_eq_ok {kind : ObjectKind} {t : Handle .texture} {format : Format} {c : Texture}
    (h : d.viewable kind t format = .ok c) :
    d.get? t = some c ∧ format.bytesPerTexel = c.desc.format.bytesPerTexel := by
  rw [viewable] at h
  split at h
  · cases h
  · rename_i hget
    split at h
    · rename_i hsize
      cases h
      exact ⟨hget, hsize⟩
    · cases h

theorem createShaderView_eq_ok {t : Handle .texture} {format : Format} {levels : UInt32}
    {v : Handle .shaderView} (run : createShaderView t format levels d = (.ok v, d')) :
    d'.get? v = some ⟨t, format⟩ ∧ ∃ c : Texture, d.get? t = some c ∧
      format.bytesPerTexel = c.desc.format.bytesPerTexel ∧
      c.desc.usage.shaderResource = true := by
  obtain ⟨refusals, view, hcontent, hview, -⟩ := made_of_create run
  obtain rfl : view = ⟨t, format⟩ := (made_of_createShaderView run).alike hview
  simp only [bind, Except.bind] at hcontent
  split at hcontent
  · cases hcontent
  · rename_i c hviewable
    obtain ⟨hget, hsize⟩ := viewable_eq_ok hviewable
    refine ⟨hview, c, hget, hsize, ?_⟩
    by_contra husage
    rw [Bool.not_eq_true] at husage
    simp [husage, throw, throwThe, MonadExceptOf.throw] at hcontent

theorem createRenderTargetView_eq_ok {t : Handle .texture} {format : Format}
    {v : Handle .renderTargetView} (run : createRenderTargetView t format d = (.ok v, d')) :
    d'.get? v = some ⟨t, format⟩ ∧ ∃ c : Texture, d.get? t = some c ∧
      format.bytesPerTexel = c.desc.format.bytesPerTexel ∧ c.desc.usage.renderTarget = true := by
  obtain ⟨hview, -⟩ := made_of_createRenderTargetView run
  obtain ⟨refusals, view, hcontent, -, -⟩ := made_of_create run
  simp only [bind, Except.bind] at hcontent
  split at hcontent
  · cases hcontent
  · rename_i c hviewable
    obtain ⟨hget, hsize⟩ := viewable_eq_ok hviewable
    refine ⟨hview, c, hget, hsize, ?_⟩
    by_contra husage
    rw [Bool.not_eq_true] at husage
    simp [husage, throw, throwThe, MonadExceptOf.throw] at hcontent

theorem createDepthStencilView_eq_ok {t : Handle .texture} {v : Handle .depthStencilView}
    (run : createDepthStencilView t d = (.ok v, d')) :
    d'.get? v = some t ∧ ∃ c : Texture, d.get? t = some c ∧ c.desc.usage.depthStencil = true := by
  obtain ⟨refusals, view, hcontent, hview, -⟩ := made_of_create run
  split at hcontent
  · cases hcontent
  · rename_i c hget
    split at hcontent
    · rename_i husage
      cases hcontent
      exact ⟨hview, c, hget, husage⟩
    · cases hcontent

/-- **A view is created of a texture that suits it.** -/
theorem suits_of_creation {request : Request} {h : Handle request.kind}
    (run : request.creation d = (.ok h, d')) {content : request.kind.Content}
    (hget : d'.get? h = some content) {t : Handle .texture} (ht : behind? content = some t) :
    ∃ c : Texture, d.get? t = some c ∧ Suits content c.desc := by
  cases request with
  | shaderView texture format levels =>
    change createShaderView texture format levels d = (.ok h, d') at run
    obtain ⟨hview, c, hfound, hsuits⟩ := createShaderView_eq_ok run
    cases hview.symm.trans hget
    cases ht
    exact ⟨c, hfound, hsuits⟩
  | renderTargetView texture format =>
    change createRenderTargetView texture format d = (.ok h, d') at run
    obtain ⟨hview, c, hfound, hsuits⟩ := createRenderTargetView_eq_ok run
    cases hview.symm.trans hget
    cases ht
    exact ⟨c, hfound, hsuits⟩
  | depthStencilView texture =>
    change createDepthStencilView texture d = (.ok h, d') at run
    obtain ⟨hview, c, hfound, hsuits⟩ := createDepthStencilView_eq_ok run
    cases hview.symm.trans hget
    cases ht
    exact ⟨c, hfound, hsuits⟩
  | _ => cases ht

theorem madeFrom_of_creation {desc : TextureDesc} {h : Handle .texture}
    (run : createTexture desc d = (.ok h, d')) {c : Texture} (hget : d'.get? h = some c) :
    c.MadeFrom desc := by
  obtain ⟨refusals, c', hcontent, hfound, -⟩ := made_of_create run
  cases hfound.symm.trans hget
  exact .of_make hcontent

/-- The texture was alive once, and its description satisfies a condition. -/
def Fits (d : Device) (t : Handle .texture) (P : TextureDesc → Prop) : Prop :=
  ∃ c : Texture, d.Made t c ∧ P c.desc

theorem Fits.evolves {t : Handle .texture} {P : TextureDesc → Prop} (h : d.Fits t P)
    (hd : d.Evolves d') : d'.Fits t P := by
  obtain ⟨c, hmade, hc⟩ := h
  exact ⟨c, hmade.evolves hd, hc⟩

theorem Fits.of_get? {t : Handle .texture} {P : TextureDesc → Prop} (h : d.Fits t P) {c : Texture}
    (hget : d.get? t = some c) : P c.desc := by
  obtain ⟨c₀, hmade, hc₀⟩ := h
  rwa [show c.desc = c₀.desc from hmade.alike hget]

theorem fits_of_get? {t : Handle .texture} {P : TextureDesc → Prop} (hd : d.Numbered) {c : Texture}
    (hget : d.get? t = some c) (hc : P c.desc) : d.Fits t P := by
  refine ⟨c, ⟨hd.id_le hget, fun {c'} hget' ↦ ?_⟩, hc⟩
  cases hget.symm.trans hget'
  rfl

namespace Run

variable {r : Run}

/-! ## The invariant -/

/-- What every operation preserves. -/
structure Sound (r : Run) : Prop where
  /-- No number is given twice. -/
  numbers : (r.granted.map (·.1)).Nodup
  /-- Numbers are given in order. -/
  given : ∀ x ∈ r.granted, x.1 ≤ r.device.lastId
  /-- What is alive was granted. -/
  live : ∀ x ∈ r.device.live, ∃ request, (x.id, request) ∈ r.granted ∧ request.kind = x.kind
  /-- It is there once. -/
  nodup : r.device.live.Nodup
  /-- A texture was made as it was asked for. -/
  textures : ∀ (t : Handle .texture) c, r.device.get? t = some c →
    ∃ desc, (t.id, .texture desc) ∈ r.granted ∧ c.MadeFrom desc
  /-- The texture behind a view suits it. -/
  views : ∀ {kind : ObjectKind} (v : Handle kind) content t, r.device.get? v = some content →
    behind? content = some t → r.device.Fits t (Suits content)

theorem Sound.numbered (h : r.Sound) : r.device.Numbered := by
  intro x hx
  obtain ⟨request, hmem, -⟩ := h.live x hx
  exact h.given _ hmem

/-- An operation does work and gives out no number, or grants a request. -/
theorem perform_cases (r : Run) (operation : Operation) :
    ((r.perform operation).granted = r.granted ∧
      (r.perform operation).device.lastId = r.device.lastId ∧
      (r.perform operation).device.live.Sublist r.device.live ∧
      r.device.Works (fun _ ↦ True) (r.perform operation).device) ∨
    ∃ request h d, request.creation r.device = (.ok h, d) ∧
      r.perform operation = { device := d, granted := (h.id, request) :: r.granted } := by
  cases operation with
  | create request =>
    obtain ⟨content, hcreation⟩ := request.exists_creation_eq
    rcases hrun : request.creation r.device with ⟨e | h, d⟩
    · rw [perform, hrun]
      rw [hcreation] at hrun
      have hd := create_eq_error hrun
      refine Or.inl ⟨rfl, ?_, ?_, Steady.run (Works.housekeeping.create _) hrun⟩
      · rw [hd]
      · rw [hd]
        exact List.Sublist.refl _
    · rw [perform, hrun]
      exact Or.inr ⟨request, h, d, hrun, rfl⟩
  | release refs =>
    refine Or.inl ⟨rfl, rfl, ?_, Works.release _ refs⟩
    change (r.device.objects.erase refs).refs.Sublist _
    rw [Store.refs_erase]
    exact List.filter_sublist
  | issue c =>
    refine Or.inl ⟨rfl, lastId_apply _ c, ?_, .single (.issue trivial)⟩
    exact (live_issue r.device c).symm ▸ List.Sublist.refl _
  | write t level data =>
    obtain ⟨hlive, hlast⟩ := live_writeTexels r.device t level data
    exact Or.inl ⟨rfl, hlast, hlive.symm ▸ List.Sublist.refl _, .single (.write t level data)⟩
  | failAfter | markInterrupted | advanceFrame | takeLog =>
    exact Or.inl ⟨rfl, rfl, List.Sublist.refl _, .single (.control rfl rfl rfl)⟩

theorem Sound.works (h : r.Sound) {device : Device} (hlast : device.lastId = r.device.lastId)
    (hlive : device.live.Sublist r.device.live) (hworks : r.device.Works (fun _ ↦ True) device) :
    ({ r with device } : Run).Sound := by
  have hid {kind : ObjectKind} {x : Handle kind} {content : kind.Content}
      (hget : device.get? x = some content) : x.id ≤ r.device.lastId :=
    h.numbered _ (hlive.subset (mem_live_of_get? hget))
  refine ⟨h.numbers, fun x hx ↦ ?_, fun x hx ↦ h.live x (hlive.subset hx), hlive.nodup h.nodup,
    fun t c hget ↦ ?_, fun {kind} v content t hget ht ↦ ?_⟩
  · exact (h.given x hx).trans_eq hlast.symm
  · obtain ⟨c₀, hget₀, hedits⟩ := hworks.edits (hid hget) hget
    obtain ⟨desc, hmem, hmade⟩ := h.textures t c₀ hget₀
    exact ⟨desc, hmem, hmade.edits hedits⟩
  · obtain ⟨content₀, hget₀, halike⟩ := hworks.evolves.get? (hid hget) hget
    obtain rfl := halike.eq_of_behind? ht
    exact (h.views v _ t hget₀ ht).evolves hworks.evolves

/-- A request that is granted inserts an object under the next number. -/
theorem exists_insert_of_creation {request : Request} {h : Handle request.kind} {d d' : Device}
    (run : request.creation d = (.ok h, d')) :
    d.Evolves d' ∧ h.id = d.lastId + 1 ∧ ∃ refusals c, d' = { d with
      refusals, lastId := d.lastId + 1, objects := d.objects.insert h c } := by
  obtain ⟨content, hcreation⟩ := request.exists_creation_eq
  rw [hcreation] at run
  have hevolves := Evolves.create.run run
  obtain ⟨refusals, c, -, rfl, rfl⟩ := create_eq_ok run
  exact ⟨hevolves, rfl, refusals, c, rfl⟩

theorem Sound.granted (hr : r.Sound) {request : Request} {h : Handle request.kind} {d : Device}
    (run : request.creation r.device = (.ok h, d)) :
    ({ device := d, granted := (h.id, request) :: r.granted } : Run).Sound := by
  obtain ⟨hevolves, hnumber, refusals, stored, hd⟩ := exists_insert_of_creation run
  have hlive : d.live = h.ref :: r.device.live := by
    rw [hd]
    rfl
  have hnew : ∀ x ∈ r.granted, x.1 ≠ h.id := by
    intro x hx heq
    have hle := hr.given x hx
    omega
  -- what is found is the new object, or it was there
  have hfound {kind : ObjectKind} {x : Handle kind} {content : kind.Content}
      (hget : d.get? x = some content) : x.ref = h.ref ∨ r.device.get? x = some content := by
    by_cases heq : h.ref = x.ref
    · exact Or.inl heq.symm
    · rw [hd] at hget
      exact Or.inr ((Store.get?_insert_of_ne _ h stored x heq).symm.trans hget)
  refine ⟨?_, fun x hx ↦ ?_, fun x hx ↦ ?_, ?_, fun t c hget ↦ ?_,
    fun {kind} v content t hget ht ↦ ?_⟩
  · refine List.nodup_cons.mpr ⟨fun hmem ↦ ?_, hr.numbers⟩
    obtain ⟨x, hx, heq⟩ := List.mem_map.mp hmem
    exact hnew x hx heq
  · rw [hd]
    change x.1 ≤ r.device.lastId + 1
    rcases List.mem_cons.mp hx with rfl | hx
    · exact Nat.le_of_eq hnumber
    · exact (hr.given x hx).trans (Nat.le_succ _)
  · rw [hlive] at hx
    rcases List.mem_cons.mp hx with rfl | hx
    · exact ⟨request, List.mem_cons_self, rfl⟩
    · obtain ⟨request', hmem, hkind⟩ := hr.live x hx
      exact ⟨request', List.mem_cons_of_mem _ hmem, hkind⟩
  · rw [hlive]
    refine List.nodup_cons.mpr ⟨fun hmem ↦ ?_, hr.nodup⟩
    have hle : h.id ≤ r.device.lastId := hr.numbered _ hmem
    omega
  · rcases hfound hget with heq | hget₀
    · cases request with
      | texture desc =>
        obtain rfl : t = h := Handle.ref_inj.mp heq
        exact ⟨desc, List.mem_cons_self, madeFrom_of_creation run hget⟩
      | _ => cases congrArg ObjectRef.kind heq
    · obtain ⟨desc, hmem, hmade⟩ := hr.textures t c hget₀
      exact ⟨desc, List.mem_cons_of_mem _ hmem, hmade⟩
  · rcases hfound hget with heq | hget₀
    · obtain rfl : kind = request.kind := congrArg ObjectRef.kind heq
      obtain rfl : v = h := Handle.ref_inj.mp heq
      obtain ⟨c, hfound, hsuits⟩ := suits_of_creation run hget ht
      exact (fits_of_get? hr.numbered hfound hsuits).evolves hevolves
    · exact (hr.views v content t hget₀ ht).evolves hevolves

/-- **Every operation preserves what holds of a device.** -/
theorem Sound.perform (h : r.Sound) (operation : Operation) : (r.perform operation).Sound := by
  rcases r.perform_cases operation with ⟨hgranted, hlast, hlive, hworks⟩ |
    ⟨request, x, d, hrun, hperform⟩
  · have hsound := h.works hlast hlive hworks
    rwa [← hgranted] at hsound
  · rw [hperform]
    exact h.granted hrun

theorem sound_start (timing : DeviceTiming) : (start timing).Sound where
  numbers := List.nodup_nil
  given x hx := by cases hx
  live x hx := by cases hx
  nodup := List.nodup_nil
  textures t c hget := (Option.some_ne_none c hget.symm).elim
  views v content t hget := (Option.some_ne_none content hget.symm).elim

theorem Sound.performAll (h : r.Sound) (operations : List Operation) :
    (r.performAll operations).Sound := by
  induction operations generalizing r with
  | nil => exact h
  | cons operation operations ih => exact ih (h.perform operation)

/-! ## What holds of every run -/

/-- What a device keeps, whatever it is asked to do. -/
structure Consistent (r : Run) : Prop where
  /-- No number was given twice, whatever the kinds. -/
  numbers : (r.granted.map (·.1)).Nodup
  /-- What is alive was asked for, and is known by the number that was given. -/
  live : ∀ x ∈ r.device.live, ∃ request, (x.id, request) ∈ r.granted ∧ request.kind = x.kind
  /-- A creation that fails changes the refusals to come, and nothing else. -/
  failure : ∀ (request : Request) e d, request.creation r.device = (.error e, d) →
    d = { r.device with refusals := (takeRefusal request.kind r.device.refusals).2 }
  /-- A texture has its shape, by the description that it was asked for with. -/
  textures : ∀ (t : Handle .texture) (c : Texture), r.device.get? t = some c → c.WellFormed ∧
    ∃ desc, (t.id, .texture desc) ∈ r.granted ∧ (∃ levels, c.desc = { desc with levels }) ∧
      c.desc.levels.toNat = if desc.levels = 0 then c.desc.fullLevels else desc.levels.toNat
  /-- The texture behind a view suits it, as long as it is alive. -/
  views : ∀ {kind : ObjectKind} (v : Handle kind) (content : kind.Content) (t : Handle .texture)
    (c : Texture), r.device.get? v = some content → behind? content = some t →
      r.device.get? t = some c → Suits content c.desc
  /-- No command that can follow reaches out of bounds. -/
  bounds : ∀ c, r.device.execute? c = some (r.device.apply c)

theorem Sound.consistent (h : r.Sound) : r.Consistent where
  numbers := h.numbers
  live := h.live
  failure request e d run := by
    obtain ⟨content, hcreation⟩ := request.exists_creation_eq
    rw [hcreation] at run
    exact create_eq_error run
  textures t c hget := by
    obtain ⟨desc, hmem, hmade⟩ := h.textures t c hget
    obtain ⟨⟨levels, hdesc⟩, hlevels⟩ := hmade.desc_eq
    refine ⟨hmade.wellFormed, desc, hmem, ⟨levels, hdesc⟩, hlevels.trans ?_⟩
    rw [hdesc]
    rfl
  views v content t c hview ht hget := (h.views v content t hview ht).of_get? hget
  bounds := execute?_eq_some h.nodup fun t c hget ↦ by
    obtain ⟨desc, -, hmade⟩ := h.textures t c hget
    exact hmade.wellFormed

/-- **A device keeps its objects in order**, whatever it is asked to create, to release, to execute
or to refuse. -/
theorem consistent_performAll (timing : DeviceTiming) (operations : List Operation) :
    ((start timing).performAll operations).Consistent :=
  ((sound_start timing).performAll operations).consistent

/-- A texture of 5 by 3 texels for which all levels are asked, of which there are three. The second
request is refused, and the third one gets the next number. -/
example :
    let desc : TextureDesc :=
      { width := 5, height := 3, levels := 0, format := .r8Unorm, usage := .effectTexture }
    let r := (start {}).performAll [.create (.texture desc), .failAfter .texture 0,
      .create (.texture desc), .create (.query .timestamp)]
    (r.device.mips? ⟨1⟩).map (·.map (·.size)) = some [15, 2, 1] ∧
      r.granted.map (·.1) = [2, 1] := by
  decide +kernel

end Run

end Device

end EffectChain
