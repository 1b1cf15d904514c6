import EffectChain.Module.Validation
import EffectChain.Yaml.Library

/-!
# Module documents

A module is described by a YAML mapping whose keys are those of the declarations. Reading one is
three steps: the typed reading, which is that of a library or any other, the slot counts, and the
validation. So a module that was read is valid, and its slot counts cover its samplers.
-/

namespace EffectChain

open Yaml

/-! ## Declarations -/

def EntryPoint.ofNode (yaml : Library := .builtin) : Reader EntryPoint yaml.Node := fun node ↦ do
  let fields ← yaml.fields ["name", "stage", "bytecode"] node
  return {
    name := ← fields.required "name" yaml.text
    stage := ← fields.required "stage" (yaml.member ShaderStage)
    bytecode := ← fields.optional "bytecode" yaml.bytes .empty }

def TextureDecl.ofNode (yaml : Library := .builtin) : Reader TextureDecl yaml.Node := fun node ↦ do
  let fields ← yaml.fields ["unique_name", "width", "height", "levels", "format", "reference"] node
  return {
    name := ← fields.required "unique_name" yaml.text
    width := ← fields.optional "width" yaml.word 1
    height := ← fields.optional "height" yaml.word 1
    levels := ← fields.optional "levels" yaml.word 1
    format := ← fields.optional "format" (yaml.member TextureFormat) .rgba8
    reference := ← fields.optional "reference" (yaml.member TextureReference) .owned }

def SamplerDecl.ofNode (yaml : Library := .builtin) : Reader SamplerDecl yaml.Node := fun node ↦ do
  let fields ← yaml.fields
    ["unique_name", "texture_name", "binding", "texture_binding", "srgb", "filter", "address_u",
      "address_v", "address_w", "lod_bias", "min_lod", "max_lod"] node
  return {
    name := ← fields.required "unique_name" yaml.text
    textureName := ← fields.required "texture_name" yaml.text
    binding := ← fields.required "binding" yaml.word
    textureBinding := ← fields.required "texture_binding" yaml.word
    gamma := ← fields.optional "srgb" yaml.bool false
    filter := ← fields.optional "filter" (yaml.member FilterMode) .minMagMipLinear
    addressU := ← fields.optional "address_u" (yaml.member AddressMode) .clamp
    addressV := ← fields.optional "address_v" (yaml.member AddressMode) .clamp
    addressW := ← fields.optional "address_w" (yaml.member AddressMode) .clamp
    lodBias := ← fields.optional "lod_bias" yaml.single .zero
    minLod := ← fields.optional "min_lod" yaml.single .zero
    maxLod := ← fields.optional "max_lod" yaml.single .maxFinite }

def PassDecl.ofNode (yaml : Library := .builtin) : Reader PassDecl yaml.Node := fun node ↦ do
  let fields ← yaml.fields
    ["vs_entry_point", "ps_entry_point", "render_target_names", "viewport_width",
      "viewport_height", "num_vertices", "clear_render_targets", "srgb_write_enable",
      "blend_enable", "src_blend", "dest_blend", "blend_op", "src_blend_alpha",
      "dest_blend_alpha", "blend_op_alpha", "color_write_mask", "stencil_enable",
      "stencil_read_mask", "stencil_write_mask", "stencil_reference_value",
      "stencil_comparison_func", "stencil_op_pass", "stencil_op_fail",
      "stencil_op_depth_fail"] node
  return {
    vertexEntry := ← fields.optional "vs_entry_point" yaml.text ""
    pixelEntry := ← fields.optional "ps_entry_point" yaml.text ""
    targetNames := ← fields.optional "render_target_names" (yaml.list yaml.text) []
    viewportWidth := ← fields.optional "viewport_width" yaml.word 0
    viewportHeight := ← fields.optional "viewport_height" yaml.word 0
    vertexCount := ← fields.optional "num_vertices" yaml.word 3
    clearsTargets := ← fields.optional "clear_render_targets" yaml.bool false
    gammaWrite := ← fields.optional "srgb_write_enable" yaml.bool false
    blendEnable := ← fields.optional "blend_enable" yaml.bool false
    srcBlend := ← fields.optional "src_blend" (yaml.member BlendFactor) .one
    destBlend := ← fields.optional "dest_blend" (yaml.member BlendFactor) .zero
    blendOp := ← fields.optional "blend_op" (yaml.member BlendOp) .add
    srcBlendAlpha := ← fields.optional "src_blend_alpha" (yaml.member BlendFactor) .one
    destBlendAlpha := ← fields.optional "dest_blend_alpha" (yaml.member BlendFactor) .zero
    blendOpAlpha := ← fields.optional "blend_op_alpha" (yaml.member BlendOp) .add
    colorWriteMask := ← fields.optional "color_write_mask" yaml.byte 0x0F
    stencilEnable := ← fields.optional "stencil_enable" yaml.bool false
    stencilReadMask := ← fields.optional "stencil_read_mask" yaml.byte 0xFF
    stencilWriteMask := ← fields.optional "stencil_write_mask" yaml.byte 0xFF
    stencilReference := ← fields.optional "stencil_reference_value" yaml.word 0
    stencilFunc := ← fields.optional "stencil_comparison_func" (yaml.member ComparisonFunc) .always
    stencilPass := ← fields.optional "stencil_op_pass" (yaml.member StencilOp) .keep
    stencilFail := ← fields.optional "stencil_op_fail" (yaml.member StencilOp) .keep
    stencilDepthFail := ← fields.optional "stencil_op_depth_fail" (yaml.member StencilOp) .keep }

def TechniqueDecl.ofNode (yaml : Library := .builtin) : Reader TechniqueDecl yaml.Node :=
  fun node ↦ do
    let fields ← yaml.fields ["name", "passes", "enabled"] node
    return {
      name := ← fields.required "name" yaml.text
      passes := ← fields.required "passes" (yaml.list (PassDecl.ofNode yaml))
      enabled := ← fields.optional "enabled" yaml.bool true }

/-! ## Modules -/

namespace EffectModule

def ofNode (yaml : Library := .builtin) : Reader EffectModule yaml.Node := fun node ↦ do
  let fields ← yaml.fields
    ["name", "entry_points", "textures", "samplers", "techniques", "num_sampler_bindings",
      "num_texture_bindings", "uniform_data"] node
  return {
    name := ← fields.optional "name" yaml.text ""
    entryPoints := ← fields.optional "entry_points" (yaml.list (EntryPoint.ofNode yaml)) []
    textures := ← fields.optional "textures" (yaml.list (TextureDecl.ofNode yaml)) []
    samplers := ← fields.optional "samplers" (yaml.list (SamplerDecl.ofNode yaml)) []
    techniques := ← fields.optional "techniques" (yaml.list (TechniqueDecl.ofNode yaml)) []
    samplerSlots := ← fields.optional "num_sampler_bindings" yaml.word 0
    textureSlots := ← fields.optional "num_texture_bindings" yaml.word 0
    uniformData := ← fields.optional "uniform_data" yaml.bytes .empty }

/-- Makes a module read from a document ready for use: slot counts that cover its samplers, then
validation. -/
def prepare (m : EffectModule) : Except ModuleError EffectModule :=
  match m.reserveSlots.validate with
  | .ok () => .ok m.reserveSlots
  | .error e => .error e

def read (yaml : Library := .builtin) (source : String) : Except YamlError EffectModule :=
  (yaml.parse source).bind (ofNode yaml)

/-- Reads and validates a module from its text. -/
def parse (source : String) (read : String → Except YamlError EffectModule := read) :
    Except ModuleError EffectModule :=
  match read source with
  | .error e => .error (.malformed e)
  | .ok m => m.prepare

/-- Reads and validates the module that a path leads to, `none` if it leads nowhere. -/
def load (path : String) (entry : Option Entry)
    (read : String → Except YamlError EffectModule := read) : Except ModuleError EffectModule :=
  match entry with
  | none => .error (.fileNotFound path)
  | some entry =>
    match entry.text with
    | .error cause => .error (.unreadable cause)
    | .ok source => parse source read

end EffectModule

end EffectChain
