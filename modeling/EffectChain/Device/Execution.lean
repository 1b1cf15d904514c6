import EffectChain.Device.Basic

/-!
# Executing commands

What each command does to a device (`Device.apply`), and its recording (`Device.issue`). No command
creates, releases or renumbers an object: those that change anything change the texels of a texture,
the contents of a buffer, the state of a query, the clock or the interruption mark, so the list of
live objects is the same after any command (`live_issue`).
-/

namespace EffectChain

namespace Texture

/-- The texture with the texels of its first level replaced. -/
def withBase (t : Texture) (base : Bytes) : Texture :=
  { t with mips := t.mips.set 0 base }

/-- Level 0 replaced by rows of `rowPitch` bytes, if the data holds all of them. -/
def upload (t : Texture) (data : Bytes) (rowPitch : Nat) : Texture :=
  let rowBytes := Mip.side t.desc.width 0 * t.desc.format.bytesPerTexel
  let height := Mip.side t.desc.height 0
  if rowPitch < rowBytes ∨ data.size < rowPitch * (height - 1) + rowBytes then t
  else
    t.withBase (Bytes.tabulate t.base.size fun i ↦
      data.byteAt (i / rowBytes * rowPitch + i % rowBytes))

/-- Every level after the first replaced by the box filter of the one before, if the format has
8-bit channels. -/
def generateMips (t : Texture) : Texture :=
  if t.desc.format.is8BitUnorm then
    { t with mips := Mip.chain t.desc 0 t.base (t.mips.length - 1) }
  else t

/-- All levels taken over from a texture whose levels have the same sizes. -/
def copyFrom (t source : Texture) : Texture :=
  if t.mips.map (·.size) = source.mips.map (·.size) then { t with mips := source.mips } else t

/-- The first level taken over from a texture whose first level has the same size. -/
def resolveFrom (t source : Texture) : Texture :=
  if t.base.size = source.base.size then t.withBase source.base else t

/-- Every texel of level 0 replaced by one, if it has the right size. -/
def fill (t : Texture) (texel : List UInt8) : Texture :=
  if texel.length = t.desc.format.bytesPerTexel then
    t.withBase (Bytes.tile t.base.size (Bytes.ofList texel))
  else t

/-- The stencil byte of every texel of level 0 replaced, if the format has one. -/
def fillStencil (t : Texture) (value : UInt8) : Texture :=
  if t.desc.format = .r24g8Typeless ∨ t.desc.format = .d24UnormS8Uint then
    t.withBase (Bytes.tabulate t.base.size fun i ↦ if i % 4 = 3 then value else t.base.byteAt i)
  else t

/-! No content changes what a texture was made from. -/

theorem desc_upload (t : Texture) (data : Bytes) (rowPitch : Nat) :
    (t.upload data rowPitch).desc = t.desc := by
  unfold upload
  dsimp only
  split <;> rfl

theorem desc_generateMips (t : Texture) : t.generateMips.desc = t.desc := by
  unfold generateMips
  split <;> rfl

theorem desc_copyFrom (t source : Texture) : (t.copyFrom source).desc = t.desc := by
  unfold copyFrom
  split <;> rfl

theorem desc_resolveFrom (t source : Texture) : (t.resolveFrom source).desc = t.desc := by
  unfold resolveFrom
  split <;> rfl

theorem desc_fill (t : Texture) (texel : List UInt8) : (t.fill texel).desc = t.desc := by
  unfold fill
  split <;> rfl

theorem desc_fillStencil (t : Texture) (value : UInt8) : (t.fillStencil value).desc = t.desc := by
  unfold fillStencil
  split <;> rfl

end Texture

namespace Device

/-- Moves from one texture to another, by a function of the target and the source. -/
def transfer (d : Device) (target source : Handle .texture) (f : Texture → Texture → Texture) :
    Device :=
  match d.get? source with
  | none => d
  | some texture => d.modify target fun t ↦ f t texture

/-- Ends a query: a timestamp takes the clock, an interval the interruption mark. -/
def finishQuery (d : Device) (q : Handle .query) : Device :=
  match d.get? q with
  | none => d
  | some query =>
    -- ending a query again replaces a result that was not read yet
    let readyFrame := d.frame + d.timing.latency
    match query.kind with
    | .timestamp =>
      d.modify q fun query ↦ { query with state := .pending readyFrame (.timestamp d.clock) }
    | .disjoint =>
      let data := QueryData.disjoint d.timing.frequency d.interruptNext
      { d.modify q fun query ↦ { query with state := .pending readyFrame data } with
        interruptNext := false }

/-- What a command does. Setting pipeline state does nothing that the device keeps. -/
def apply (d : Device) : Command → Device
  | .updateTexture texture data rowPitch => d.modify texture fun t ↦ t.upload data rowPitch
  | .updateConstantBuffer buffer data => d.modify buffer fun b ↦ Bytes.fit b.size data
  | .generateMips view =>
    match d.viewTexture? view with
    | none => d
    | some texture => d.modify texture fun t ↦ t.generateMips
  | .copyResource target source => d.transfer target source fun t s ↦ t.copyFrom s
  | .resolve target source _ => d.transfer target source fun t s ↦ t.resolveFrom s
  | .clearRenderTarget view color =>
    match d.get? view with
    | none => d
    | some v => d.modify v.texture fun t ↦ t.fill (color.encode v.format)
  | .clearStencil view value =>
    match d.get? view with
    | none => d
    | some texture => d.modify texture fun t ↦ t.fillStencil value
  | .draw _ => { d with clock := d.clock + d.timing.ticksPerDraw }
  | .beginQuery query =>
    d.modify query fun q ↦ if q.kind = .disjoint then { q with state := .recording } else q
  | .endQuery query => d.finishQuery query
  | .setShaders .. | .setSamplers _ | .setShaderResources _ | .setConstantBuffer _
  | .setBlendState _ | .setDepthStencilState .. | .setRenderTargets .. | .setViewport .. => d

def issue (d : Device) (c : Command) : Device :=
  let d := d.apply c
  { d with recorded := c :: d.recorded }

/-- Executes and records commands, in order. -/
def issueAll (d : Device) (cs : List Command) : Device := cs.foldl issue d

@[simp] theorem live_modify (d : Device) {kind : ObjectKind} (h : Handle kind)
    (f : kind.Content → kind.Content) : (d.modify h f).live = d.live :=
  Store.refs_modify d.objects h f

theorem live_apply (d : Device) (c : Command) : (d.apply c).live = d.live := by
  cases c <;> simp only [apply, transfer, finishQuery] <;> repeat' split
  all_goals first
    | rfl
    | exact live_modify d _ _

@[simp] theorem live_issue (d : Device) (c : Command) : (d.issue c).live = d.live :=
  live_apply d c

theorem lastId_apply (d : Device) (c : Command) : (d.apply c).lastId = d.lastId := by
  cases c <;> simp only [apply, transfer, finishQuery] <;> repeat' split
  all_goals rfl

theorem lastId_issueAll (d : Device) (cs : List Command) : (d.issueAll cs).lastId = d.lastId := by
  induction cs generalizing d with
  | nil => rfl
  | cons c cs ih => exact (ih (d.issue c)).trans (lastId_apply d c)

theorem refusals_apply (d : Device) (c : Command) : (d.apply c).refusals = d.refusals := by
  cases c <;> simp only [apply, transfer, finishQuery] <;> repeat' split
  all_goals rfl

theorem refusals_issueAll (d : Device) (cs : List Command) :
    (d.issueAll cs).refusals = d.refusals := by
  induction cs generalizing d with
  | nil => rfl
  | cons c cs ih => exact (ih (d.issue c)).trans (refusals_apply d c)

theorem live_writeTexels (d : Device) (t : Handle .texture) (level : Nat) (data : Bytes) :
    (d.writeTexels t level data).2.live = d.live ∧
      (d.writeTexels t level data).2.lastId = d.lastId := by
  unfold writeTexels
  repeat' split
  · exact ⟨live_modify d t _, rfl⟩
  · exact ⟨rfl, rfl⟩
  · exact ⟨rfl, rfl⟩

theorem recorded_apply (d : Device) (c : Command) : (d.apply c).recorded = d.recorded := by
  cases c <;> simp only [apply, transfer, finishQuery] <;> repeat' split
  all_goals rfl

@[simp] theorem log_issue (d : Device) (c : Command) : (d.issue c).log = d.log ++ [c] := by
  simp [log, issue, recorded_apply]

/-- Commands are recorded in the order in which they are issued. -/
@[simp] theorem log_issueAll (d : Device) (cs : List Command) :
    (d.issueAll cs).log = d.log ++ cs := by
  induction cs generalizing d with
  | nil => simp [issueAll]
  | cons c cs ih => simpa [issueAll] using ih (d.issue c)

@[simp] theorem live_issueAll (d : Device) (cs : List Command) : (d.issueAll cs).live = d.live := by
  induction cs generalizing d with
  | nil => rfl
  | cons c cs ih => exact (ih (d.issue c)).trans (live_issue d c)

end Device

end EffectChain
