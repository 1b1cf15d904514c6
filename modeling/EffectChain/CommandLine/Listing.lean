import EffectChain.CommandLine.Text
import EffectChain.Module.Basic

/-!
# Listing a module

What a module declares, one line per declaration. The state of passes is only listed on request, and
of it only what differs from the default.
-/

namespace EffectChain.CommandLine

def entryPointLine (e : EntryPoint) : String :=
  "    " ++ padTo 24 e.name ++ " " ++ padTo 6 (Enumeration.name e.stage) ++ " "
    ++ toString e.bytecode.size ++ " bytes"

def textureLine (t : TextureDecl) : String :=
  "    " ++ padTo 24 t.name ++ " " ++
    match t.reference with
    | .owned =>
      wordText t.width ++ "x" ++ wordText t.height ++ " " ++ Enumeration.title t.format ++ ", "
        ++ wordText t.levels ++ " level(s)"
    | reference => "-> " ++ Enumeration.title reference

def samplerLine (s : SamplerDecl) : String :=
  "    " ++ padTo 24 s.name ++ " s" ++ wordText s.binding ++ " t" ++ wordText s.textureBinding
    ++ " " ++ s.textureName ++ (if s.gamma then " (srgb)" else "")

def passStateLines (p : PassDecl) : List String :=
  (match p.explicitViewport? with
    | some (width, height) => ["        viewport: " ++ wordText width ++ "x" ++ wordText height]
    | none => [])
  ++ (if p.blendEnable then
      ["        blend: " ++ Enumeration.title p.srcBlend ++ " " ++ Enumeration.title p.blendOp
        ++ " " ++ Enumeration.title p.destBlend]
    else [])
  ++ (if p.stencilEnable then
      ["        stencil: " ++ Enumeration.title p.stencilFunc ++ " ref "
        ++ wordText p.stencilReference]
    else [])
  ++ (if p.clearsTargets then ["        clears targets"] else [])

def passLines (verbose : Bool) (p : PassDecl) (index : Nat) : List String :=
  let targets :=
    if p.targetsBackbuffer then "<backbuffer>" else ", ".intercalate p.targetNames
  ("      pass " ++ toString index ++ ": " ++ p.vertexEntry ++ " / " ++ p.pixelEntry ++ " -> "
    ++ targets)
  :: (if verbose then passStateLines p else [])

def techniqueLines (verbose : Bool) (t : TechniqueDecl) : List String :=
  ("    " ++ t.name ++ (if t.enabled then "" else " (disabled)"))
    :: t.passes.zipIdx.flatMap fun (p, index) ↦ passLines verbose p index

def moduleLines (verbose : Bool) (m : EffectModule) : List String :=
  ["  Name:          " ++ m.name,
    "  Sampler slots: " ++ wordText m.samplerSlots,
    "  Texture slots: " ++ wordText m.textureSlots,
    "  Uniform bytes: " ++ toString m.uniformData.size,
    "  Entry points:"]
  ++ m.entryPoints.map entryPointLine
  ++ ["  Textures:"] ++ m.textures.map textureLine
  ++ ["  Samplers:"] ++ m.samplers.map samplerLine
  ++ ["  Techniques:"] ++ m.techniques.flatMap (techniqueLines verbose)

end EffectChain.CommandLine
