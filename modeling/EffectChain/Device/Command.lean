import EffectChain.Device.Handle
import EffectChain.Device.Texel

/-!
# Device commands

Commands move data, set pipeline state, draw, and bracket intervals. None can fail or create an
object: a command that names an object the device does not know does nothing.
-/

namespace EffectChain

/-- A command. -/
inductive Command
  /-- Replaces the texels of level 0 by rows of `rowPitch` bytes. -/
  | updateTexture (texture : Handle .texture) (data : Bytes) (rowPitch : Nat)
  /-- Replaces the contents of a constant buffer. -/
  | updateConstantBuffer (buffer : Handle .buffer) (data : Bytes)
  /-- Regenerates every level after the first of the texture behind a view. -/
  | generateMips (view : Handle .shaderView)
  /-- Copies all levels of one texture into another. -/
  | copyResource (target source : Handle .texture)
  /-- Resolves a multisampled texture into a single-sampled one. -/
  | resolve (target source : Handle .texture) (format : Format)
  /-- Writes one colour into every texel of level 0. -/
  | clearRenderTarget (view : Handle .renderTargetView) (color : Color)
  /-- Writes one value into the stencil part of every texel. -/
  | clearStencil (view : Handle .depthStencilView) (value : UInt8)
  /-- Binds the shaders. -/
  | setShaders (vertex pixel : Handle .shader)
  /-- Binds samplers from slot 0 on. -/
  | setSamplers (samplers : List (Option (Handle .sampler)))
  /-- Binds shader views from slot 0 on. -/
  | setShaderResources (views : List (Option (Handle .shaderView)))
  /-- Binds a constant buffer. -/
  | setConstantBuffer (buffer : Option (Handle .buffer))
  /-- Binds a blend state. -/
  | setBlendState (state : Handle .blendState)
  /-- Binds a depth-stencil state with a stencil reference value. -/
  | setDepthStencilState (state : Handle .depthStencilState) (reference : UInt32)
  /-- Binds render targets from slot 0 on, and a depth-stencil surface. -/
  | setRenderTargets (targets : List (Option (Handle .renderTargetView)))
      (depthStencil : Option (Handle .depthStencilView))
  /-- Sets the viewport. -/
  | setViewport (width height : UInt32)
  /-- Draws so many vertices. -/
  | draw (vertices : UInt32)
  /-- Starts an interval. -/
  | beginQuery (query : Handle .query)
  /-- Ends an interval, or takes a timestamp. -/
  | endQuery (query : Handle .query)
  deriving DecidableEq

end EffectChain
