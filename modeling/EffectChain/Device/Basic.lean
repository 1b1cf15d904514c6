import EffectChain.Device.Command
import EffectChain.Device.Mip
import EffectChain.Device.Store

/-!
# The device

A device that renders nothing but keeps everything else: the texels of every texture, moved by
uploads, copies, resolves, clears and mip generation, the contents of constant buffers, the clock
that draws advance, and the queries that read it. It records every command. Creation is where a
device can fail, and a host can ask it to (`Device.failAfter`), so all creation goes through one
function, `Device.create`: a refusal first, then the check of the arguments, then the next number.
-/

namespace EffectChain

/-- How a device counts time. -/
structure DeviceTiming where
  /-- Clock ticks of a second. -/
  frequency : UInt64 := 10000000
  /-- Clock ticks of a draw. -/
  ticksPerDraw : UInt64 := 1000
  /-- Frames from the end of a query until its result can be read. -/
  latency : UInt64 := 1
  deriving DecidableEq

/-- A refusal that the host asked for: of the creation of a kind that follows so many others. -/
structure Refusal where
  /-- The kind of object. -/
  kind : ObjectKind
  /-- Creations of the kind to let through first. -/
  after : Nat
  deriving DecidableEq

/-! ## Errors -/

/-- Why an argument of a creation is invalid. -/
inductive InvalidArgument
  | textureSize (width height : UInt32)
  | unknownFormat
  | tooManyLevels (requested full : Nat)
  | sampleCount (samples : UInt32) (levels : Nat)
  | viewFormat (view texture : Format)
  | notReadable
  | viewLevels (requested : UInt32) (available : Nat)
  | notRenderTarget
  | notDepthStencil
  | lodRange (maxLod minLod : Single)
  | emptyShader
  | bufferSize (size : Nat)
  deriving DecidableEq

def InvalidArgument.message : InvalidArgument → String
  | textureSize width height =>
    "texture size " ++ toString width.toNat ++ "x" ++ toString height.toNat
  | unknownFormat => "texture format is unknown"
  | tooManyLevels requested full =>
    toString requested ++ " mip levels requested, at most " ++ toString full ++ " fit"
  | sampleCount samples levels =>
    "sample count " ++ toString samples.toNat ++ " with " ++ toString levels ++ " mip levels"
  | viewFormat view texture =>
    "view format " ++ view.name ++ " is incompatible with resource format " ++ texture.name
  | notReadable => "resource is not shader-readable"
  | viewLevels requested available =>
    "view over " ++ toString requested.toNat ++ " levels of a " ++ toString available
      ++ "-level resource"
  | notRenderTarget => "resource is not a render target"
  | notDepthStencil => "resource is not a depth-stencil"
  | lodRange maxLod minLod => "max LOD " ++ maxLod.text ++ " below min LOD " ++ minLod.text
  | emptyShader => "empty shader bytecode"
  | bufferSize size =>
    "constant buffer size " ++ toString size ++ " is not a positive multiple of 16"

/-- Why an object could not be created. -/
inductive DeviceError
  /-- The device has no memory for an object of the kind. -/
  | outOfMemory (kind : ObjectKind)
  /-- An argument is invalid. -/
  | invalidArgument (reason : InvalidArgument)
  /-- The texture for a view of the kind is not alive. -/
  | unknownTexture (view : ObjectKind)
  deriving DecidableEq

def DeviceError.message : DeviceError → String
  | outOfMemory kind => "out of memory creating " ++ kind.description
  | invalidArgument reason => "invalid argument: " ++ reason.message
  | unknownTexture view =>
    "unknown handle passed to " ++
      match view with
      | .renderTargetView => "create_render_target_view"
      | .depthStencilView => "create_depth_stencil_view"
      | _ => "create_shader_view"

/-! ## State -/

/-- A device. -/
structure Device where
  /-- How it counts time. -/
  timing : DeviceTiming := {}
  /-- The last number given to an object. -/
  lastId : Nat := 0
  /-- The current frame. -/
  frame : UInt64 := 0
  /-- The clock. -/
  clock : UInt64 := 0
  /-- The live objects. -/
  objects : Store := []
  /-- Refusals still to come, in the order they were asked for. -/
  refusals : List Refusal := []
  /-- Whether the next interval to end counts as interrupted. -/
  interruptNext : Bool := false
  /-- The commands recorded so far, last first. -/
  recorded : List Command := []

/-- An action on a device that may fail. What it did before it failed stays done. -/
abbrev DeviceM : Type → Type := ExceptT DeviceError (StateM Device)

namespace Device

def get? (d : Device) {kind : ObjectKind} (h : Handle kind) : Option kind.Content :=
  d.objects.get? h

def live (d : Device) : List ObjectRef := d.objects.refs

/-- The commands recorded so far, in order. -/
def log (d : Device) : List Command := d.recorded.reverse

/-- Releases the objects that are referred to; what is not alive is left alone. -/
def release (d : Device) (refs : List ObjectRef) : Device :=
  { d with objects := d.objects.erase refs }

def modify (d : Device) {kind : ObjectKind} (h : Handle kind) (f : kind.Content → kind.Content) :
    Device :=
  { d with objects := d.objects.modify h f }

def textureDesc? (d : Device) (t : Handle .texture) : Option TextureDesc :=
  (d.get? t).map (·.desc)

def viewTexture? (d : Device) (v : Handle .shaderView) : Option (Handle .texture) :=
  (d.get? v).map (·.texture)

/-- The texture behind a render target view. -/
def targetTexture? (d : Device) (v : Handle .renderTargetView) : Option (Handle .texture) :=
  (d.get? v).map (·.texture)

def texels? (d : Device) (t : Handle .texture) (level : Nat) : Option Bytes :=
  (d.get? t).bind fun texture ↦ texture.mips[level]?

/-- The texels of the first level of the texture behind a shader view. -/
def viewTexels? (d : Device) (v : Handle .shaderView) : Option Bytes :=
  (d.viewTexture? v).bind fun t ↦ d.texels? t 0

/-- The result of a query, once its frame has come. -/
def queryData? (d : Device) (q : Handle .query) : Option QueryData :=
  match d.get? q with
  | none => none
  | some query =>
    match query.state with
    | .pending readyFrame data => if readyFrame ≤ d.frame then some data else none
    | .idle | .recording => none

/-! ## What the host asks of the device -/

/-- Refuses the creation of a kind that follows `after` more of the kind. -/
def failAfter (d : Device) (kind : ObjectKind) (after : Nat) : Device :=
  { d with refusals := d.refusals ++ [⟨kind, after⟩] }

def failNext (d : Device) (kind : ObjectKind) : Device := d.failAfter kind 0

/-- Counts the next interval to end as interrupted. -/
def markInterrupted (d : Device) : Device := { d with interruptNext := true }

def advanceFrame (d : Device) : Device := { d with frame := d.frame + 1 }

/-- Overwrites a level as an application that draws into it would. Refuses data of another size. -/
def writeTexels (d : Device) (t : Handle .texture) (level : Nat) (data : Bytes) : Bool × Device :=
  match d.texels? t level with
  | some texels =>
    if texels.size = data.size then
      (true, d.modify t fun texture ↦ { texture with mips := texture.mips.set level data })
    else (false, d)
  | none => (false, d)

/-- Takes the log, which is empty afterwards. -/
def takeLog (d : Device) : List Command × Device := (d.log, { d with recorded := [] })

/-! ## Creation -/

/-- Whether the next creation of a kind is refused, and the refusals that remain: only the first
one of the kind counts down, and it is gone once it has struck. -/
def takeRefusal (kind : ObjectKind) : List Refusal → Bool × List Refusal
  | [] => (false, [])
  | r :: rest =>
    if r.kind = kind then
      if r.after = 0 then (true, rest) else (false, { r with after := r.after - 1 } :: rest)
    else
      let (refused, rest) := takeRefusal kind rest
      (refused, r :: rest)

/-- Creates an object of a kind, unless a refusal is due or the content is invalid. -/
def create (kind : ObjectKind) (content : Device → Except DeviceError kind.Content) :
    DeviceM (Handle kind) :=
  ExceptT.mk fun d ↦
    -- an attempt counts against a refusal even if its arguments turn out to be invalid
    let (refused, refusals) := takeRefusal kind d.refusals
    let d := { d with refusals }
    if refused then (.error (.outOfMemory kind), d)
    else
      match content d with
      | .error e => (.error e, d)
      | .ok content =>
        let h : Handle kind := ⟨d.lastId + 1⟩
        (.ok h, { d with lastId := h.id, objects := d.objects.insert h content })

/-- What a successful creation does: it takes the next number and stores the content. -/
theorem create_eq_ok {kind : ObjectKind} {content : Device → Except DeviceError kind.Content}
    {d d' : Device} {h : Handle kind} (run : create kind content d = (.ok h, d')) :
    ∃ refusals c, content { d with refusals } = .ok c ∧ h = ⟨d.lastId + 1⟩ ∧
      d' = { d with
        refusals, lastId := d.lastId + 1, objects := d.objects.insert ⟨d.lastId + 1⟩ c } := by
  simp only [create, ExceptT.mk] at run
  rcases htake : takeRefusal kind d.refusals with ⟨refused, refusals⟩
  simp only [htake] at run
  split at run
  · cases run
  · split at run
    · cases run
    · rename_i c hc
      cases run
      exact ⟨refusals, c, hc, rfl, rfl⟩

/-- A creation that is refused, or has invalid arguments, counts against the refusals to come.
Nothing else changes. -/
theorem create_eq_error {kind : ObjectKind} {content : Device → Except DeviceError kind.Content}
    {d d' : Device} {e : DeviceError} (run : create kind content d = (.error e, d')) :
    d' = { d with refusals := (takeRefusal kind d.refusals).2 } := by
  simp only [create, ExceptT.mk] at run
  split at run
  · cases run
    rfl
  · split at run <;> cases run
    rfl

theorem log_create {kind : ObjectKind} (content : Device → Except DeviceError kind.Content)
    (d : Device) : (create kind content d).2.log = d.log := by
  rcases hrun : create kind content d with ⟨e | h, d'⟩
  · obtain rfl := create_eq_error hrun
    rfl
  · obtain ⟨_, _, -, -, rfl⟩ := create_eq_ok hrun
    rfl

end Device

/-- A texture of zeros, if its description is valid. -/
def Texture.make (desc : TextureDesc) : Except DeviceError Texture :=
  let full := desc.fullLevels
  let levels := if desc.levels = 0 then full else desc.levels.toNat
  if desc.width = 0 ∨ desc.height = 0 then
    .error (.invalidArgument (.textureSize desc.width desc.height))
  else if desc.format.bytesPerTexel = 0 then .error (.invalidArgument .unknownFormat)
  else if full < levels then .error (.invalidArgument (.tooManyLevels levels full))
  else if desc.sampleCount = 0 ∨ (1 < desc.sampleCount ∧ 1 < levels) then
    .error (.invalidArgument (.sampleCount desc.sampleCount levels))
  else
    .ok {
      desc := { desc with levels := UInt32.ofNat levels }
      mips := (List.range levels).map fun level ↦ Bytes.zeros (Mip.byteSize desc level) }

namespace Device

/-- The texture for a view of a kind, if it is alive and its texels have the size of the view's. -/
def viewable (d : Device) (kind : ObjectKind) (t : Handle .texture) (format : Format) :
    Except DeviceError Texture :=
  match d.get? t with
  | none => .error (.unknownTexture kind)
  | some texture =>
    if format.bytesPerTexel = texture.desc.format.bytesPerTexel then .ok texture
    else .error (.invalidArgument (.viewFormat format texture.desc.format))

def createTexture (desc : TextureDesc) : DeviceM (Handle .texture) :=
  create .texture fun _ ↦ Texture.make desc

/-- Creates a swapchain buffer as a presentation engine would. -/
def createBackbuffer (width height : UInt32) (format : Format) (sampleCount : UInt32) :
    DeviceM (Handle .texture) :=
  createTexture { width, height, format, sampleCount, usage := .targetOnly }

/-- Creates a depth buffer as an application would that lets shaders read it. -/
def createDepthBuffer (width height sampleCount : UInt32) : DeviceM (Handle .texture) :=
  createTexture (.depthBuffer width height sampleCount)

/-- Creates a view for shaders over the first levels of a texture. -/
def createShaderView (t : Handle .texture) (format : Format) (levels : UInt32) :
    DeviceM (Handle .shaderView) :=
  create .shaderView fun d ↦ do
    let texture ← d.viewable .shaderView t format
    if !texture.desc.usage.shaderResource then throw (.invalidArgument .notReadable)
    if levels = 0 ∨ texture.desc.levels < levels then
      throw (.invalidArgument (.viewLevels levels texture.desc.levels.toNat))
    return { texture := t, format }

def createRenderTargetView (t : Handle .texture) (format : Format) :
    DeviceM (Handle .renderTargetView) :=
  create .renderTargetView fun d ↦ do
    let texture ← d.viewable .renderTargetView t format
    if !texture.desc.usage.renderTarget then throw (.invalidArgument .notRenderTarget)
    return { texture := t, format }

/-- Creates a view for depth and stencil. -/
def createDepthStencilView (t : Handle .texture) : DeviceM (Handle .depthStencilView) :=
  create .depthStencilView fun d ↦
    match d.get? t with
    | none => .error (.unknownTexture .depthStencilView)
    | some texture =>
      if texture.desc.usage.depthStencil then .ok t else .error (.invalidArgument .notDepthStencil)

def createSampler (desc : SamplerDesc) : DeviceM (Handle .sampler) :=
  create .sampler fun _ ↦
    if desc.maxLod.lt desc.minLod then
      .error (.invalidArgument (.lodRange desc.maxLod desc.minLod))
    else .ok desc

def createBlendState (desc : BlendDesc) : DeviceM (Handle .blendState) :=
  create .blendState fun _ ↦ .ok desc

def createDepthStencilState (desc : DepthStencilDesc) : DeviceM (Handle .depthStencilState) :=
  create .depthStencilState fun _ ↦ .ok desc

def createShader (stage : ShaderStage) (bytecode : Bytes) : DeviceM (Handle .shader) :=
  create .shader fun _ ↦
    if bytecode.size = 0 then .error (.invalidArgument .emptyShader) else .ok stage

def createConstantBuffer (size : Nat) : DeviceM (Handle .buffer) :=
  create .buffer fun _ ↦
    if size = 0 ∨ size % 16 ≠ 0 then .error (.invalidArgument (.bufferSize size))
    else .ok (Bytes.zeros size)

def createQuery (kind : QueryKind) : DeviceM (Handle .query) :=
  create .query fun _ ↦ .ok { kind }

end Device

end EffectChain
