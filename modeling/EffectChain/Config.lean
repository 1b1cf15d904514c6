import EffectChain.Folder
import EffectChain.Yaml.Library

/-!
# Configuration

The only settings are those of depth buffer detection, in one section of a YAML document. What a
document leaves out keeps its default, and so does everything if the document is blank or the file
does not exist. `Config.render` writes a document that reads back to the configuration.
-/

namespace EffectChain

open Yaml

/-- Settings of depth buffer detection. -/
structure DepthConfig where
  /-- Whether the scene depth is taken from a snapshot made at a clear. -/
  preserve : Bool := false
  /-- Which clear, counted from one; zero stands for the last. -/
  clearNumber : UInt32 := 0
  /-- Whether a depth buffer must plausibly match the backbuffer in size. -/
  matchAspect : Bool := true
  deriving DecidableEq

/-- The settings of the chain. -/
structure Config where
  /-- Depth buffer detection. -/
  depth : DepthConfig := {}
  deriving DecidableEq

/-- Why a configuration cannot be read. -/
inductive ConfigError
  /-- The file cannot be read. -/
  | unreadable (cause : ReadError)
  /-- The text is no configuration document. -/
  | malformed (cause : YamlError)
  deriving DecidableEq

def ConfigError.message : ConfigError → String
  | unreadable cause => "I/O error: " ++ cause.message
  | malformed cause => "YAML parse error: " ++ cause.message

namespace DepthConfig

/-- The clear in effect: none unless snapshots are taken, and the largest number, which stands for
the last clear, in place of zero. -/
def effectiveClear? (c : DepthConfig) : Option UInt32 :=
  if !c.preserve then none else some (if c.clearNumber = 0 then 0xFFFFFFFF else c.clearNumber)

def ofNode (yaml : Library := .builtin) : Reader DepthConfig yaml.Node := fun node ↦ do
  let fields ← yaml.fields
    ["DepthBufferRetrievalMode", "DepthBufferClearingNumber", "UseAspectRatioHeuristics"] node
  return {
    preserve := ← fields.optional "DepthBufferRetrievalMode" yaml.bool false
    clearNumber := ← fields.optional "DepthBufferClearingNumber" yaml.word 0
    matchAspect := ← fields.optional "UseAspectRatioHeuristics" yaml.bool true }

def toData (c : DepthConfig) : Data :=
  .mapping [
    ("DepthBufferRetrievalMode", .bool c.preserve),
    ("DepthBufferClearingNumber", .word c.clearNumber),
    ("UseAspectRatioHeuristics", .bool c.matchAspect)]

end DepthConfig

namespace Config

def ofNode (yaml : Library := .builtin) : Reader Config yaml.Node := fun node ↦ do
  let fields ← yaml.fields ["depth_buffer_detection"] node
  return { depth := ← fields.optional "depth_buffer_detection" (DepthConfig.ofNode yaml) {} }

def toData (c : Config) : Data := .mapping [("depth_buffer_detection", c.depth.toData)]

/-- Characters that leave a document blank. -/
def isSpace (c : Char) : Bool :=
  let n := c.toNat
  (0x09 ≤ n && n ≤ 0x0D) || n = 0x20 || n = 0x85 || n = 0xA0 || n = 0x1680
    || (0x2000 ≤ n && n ≤ 0x200A) || n = 0x2028 || n = 0x2029 || n = 0x202F || n = 0x205F
    || n = 0x3000

def IsBlank (source : String) : Prop := source.toList.all isSpace = true

instance (source : String) : Decidable (IsBlank source) := inferInstanceAs (Decidable (_ = true))

/-- Reads a configuration from its text. A blank text gives the defaults. -/
def parse (source : String) (yaml : Library := .builtin) : Except ConfigError Config :=
  if IsBlank source then .ok {}
  else
    match (yaml.parse source).bind (ofNode yaml) with
    | .error e => .error (.malformed e)
    | .ok c => .ok c

/-- Reads the configuration that a path leads to, `none` if it leads nowhere. -/
def load (entry : Option Entry) (yaml : Library := .builtin) : Except ConfigError Config :=
  match entry with
  | none => .ok {}
  | some entry =>
    match entry.text with
    | .error cause => .error (.unreadable cause)
    | .ok source => parse source yaml

def render (c : Config) (yaml : Library := .builtin) : String := yaml.render c.toData

/-- Writes the document of a configuration where a path leads, `none` if no file can be there. -/
def save (c : Config) (f : Folder) (path : String) (yaml : Library := .builtin) : Option Folder :=
  f.write? path (c.render yaml).toUTF8

end Config

end EffectChain
