import EffectChain.Engine.Basic

/-!
# Frames

Presenting a frame selects the scene depth, points the alias at it, and runs every enabled technique
of every active effect in the order of the table. What a pass, a technique and the frame around them
issue is given as lists of commands, functions of the records alone, so the log of a frame can be
read off them; only the timers look at the device. Nothing here can fail, since all that can is done
at activation.
-/

namespace EffectChain

/-! ## Passes -/

namespace PassRecord

/-- Whether the pass is drawn with the stencil surface of the backbuffer, which takes a viewport of
its size. -/
def usesStencil (p : PassRecord) (b : Backbuffer) : Bool :=
  p.stencilEnable && p.viewport = (b.width, b.height)

/-- What the inputs of the pass stand for. -/
def boundViews (p : PassRecord) (b : Backbuffer) (depthView : Option (Handle .shaderView)) :
    List (Option (Handle .shaderView)) :=
  p.inputs.map (b.resolveSlot depthView)

/-- The commands of the pass, which clear the stencil surface first if asked to. -/
def commands (p : PassRecord) (b : Backbuffer) (depthView : Option (Handle .shaderView))
    (clearsStencil : Bool) : List Command :=
  let views := p.boundViews b depthView
  [.setShaders p.vertexShader p.pixelShader,
    .setBlendState p.blend,
    .setDepthStencilState p.depthStencil p.stencilReference,
    -- earlier passes may have drawn into the scene
    .copyResource b.copy b.resolved,
    .setShaderResources views]
  ++ (if clearsStencil then [.clearStencil b.stencilView 0] else [])
  ++ [.setRenderTargets p.targetSlots (if p.usesStencil b then some b.stencilView else none)]
  ++ (if p.clearsTargets then p.targets.map fun t ↦ .clearRenderTarget t .transparent else [])
  ++ [.setViewport p.viewport.1 p.viewport.2,
    .draw p.vertexCount,
    .setRenderTargets (List.replicate maxRenderTargets none) none,
    .setShaderResources (views.map fun _ ↦ none)]
  ++ p.mipViews.map .generateMips

end PassRecord

/-- The commands of passes; the first one that uses the stencil surface clears it, unless it was
cleared before. -/
def passCommands (b : Backbuffer) (depthView : Option (Handle .shaderView)) :
    Bool → List PassRecord → List Command
  | _, [] => []
  | cleared, p :: rest =>
    p.commands b depthView (p.usesStencil b && !cleared)
      ++ passCommands b depthView (cleared || p.usesStencil b) rest

/-! ## Techniques -/

/-- The commands of a technique between the start and the end of its measurement. -/
def TechniqueState.commands (s : TechniqueState) (b : Backbuffer)
    (depthView : Option (Handle .shaderView)) (e : Effect) : List Command :=
  let buffer := e.objects.bind (·.uniformBuffer)
  [.setSamplers s.samplers]
  ++ (buffer.toList.map fun h ↦ .updateConstantBuffer h e.uniforms)
  ++ [.setConstantBuffer buffer]
  ++ passCommands b depthView false s.passes

/-- What a technique runs with: its state and its effect, if it is enabled and both are there. -/
def Technique.runnable? (t : Technique) (effect? : Nat → Option Effect) :
    Option (TechniqueState × Effect) :=
  if t.enabled then
    t.state.bind fun state ↦ (effect? t.effect).map fun effect ↦ (state, effect)
  else none

/-- Runs a technique, if it can run: a measurement that is ready is collected, the next one
started, and the passes are drawn. -/
def Technique.run (t : Technique) (b : Backbuffer) (depthView : Option (Handle .shaderView))
    (effect? : Nat → Option Effect) (d : Device) : Technique × Device :=
  match t.runnable? effect? with
  | none => (t, d)
  | some (state, effect) =>
    -- what is ready now was measured in an earlier frame
    let (timer, duration) := state.timer.collect d t.duration
    let (timing, timer, opening) := timer.start
    let (timer, closing) := if timing then timer.stop.2 else (timer, [])
    let body := state.commands b depthView effect
    ({ t with duration, state := some { state with timer } },
      d.issueAll (opening ++ body ++ closing))

def runTechniques (b : Backbuffer) (depthView : Option (Handle .shaderView))
    (effect? : Nat → Option Effect) : List Technique → Device → List Technique × Device
  | [], d => ([], d)
  | t :: rest, d =>
    let (t, d) := t.run b depthView effect? d
    let (rest, d) := runTechniques b depthView effect? rest d
    (t :: rest, d)

/-! ## The frame -/

/-- The commands ahead of the techniques: the scene target and the copy of the scene take the
application's frame. -/
def Backbuffer.opening (b : Backbuffer) : List Command :=
  (if b.needsResolve then [.resolve b.resolved b.buffer b.format] else [])
    ++ [.setRenderTargets [some b.targets.linear] none, .copyResource b.copy b.resolved]

namespace Engine

/-- The selection of the scene depth for a frame. -/
def selectDepth (e : Engine) (b : Backbuffer) (tracker : DepthTracker) : Option DepthSelection :=
  { DepthSelector.ofConfig e.config.depth with manual := e.depthOverride }.select tracker b.width
    b.height

/-- The passes of the techniques that run in a frame, in order. -/
def framePasses (e : Engine) : List PassRecord :=
  e.techniques.flatMap fun t ↦
    match t.runnable? e.effect? with
    | none => []
    | some (state, _) => state.passes

/-- Runs all techniques over the frame that an application has drawn with the depth buffers that a
tracker holds. Does nothing without a backbuffer. -/
def present (e : Engine) (tracker : DepthTracker) : Engine :=
  match e.backbuffer with
  | none => e
  | some b =>
    let selection := e.selectDepth b tracker
    let stats := e.framePasses.foldl (fun s p ↦ s.record p.vertexCount) tracker.total
    let (depth, device) := e.depth.point (selection.map (·.texture)) e.device
    let device := device.issueAll b.opening
    let (techniques, device) := runTechniques b depth.view e.effect? e.techniques device
    let device := device.issue (.copyResource b.copy b.resolved)
    { e with stats, selection, depth, device, techniques }

end Engine

end EffectChain
