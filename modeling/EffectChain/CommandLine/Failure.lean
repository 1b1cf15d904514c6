import EffectChain.CommandLine.Text
import EffectChain.Engine.Error
import EffectChain.Module.Validation
import EffectChain.Config

/-!
# Failures of an action

A failure says what could not be done and lists its causes, outermost first. In the report a single
cause stands alone and several are numbered, and the further lines of a cause are indented like its
first.
-/

namespace EffectChain.CommandLine

/-- Why an action stopped. -/
inductive Failure
  /-- The backbuffer would have no texels. -/
  | invalidSize (width height : UInt32)
  /-- A configuration file cannot be used. -/
  | config (path : String) (cause : ConfigError)
  /-- A module file cannot be used. -/
  | module (path : String) (cause : ModuleError)
  /-- The swapchain's buffer could not be created. -/
  | backbuffer (cause : DeviceError)
  /-- The scene's shadow map could not be created. -/
  | shadowMap (cause : DeviceError)
  /-- The scene's depth buffer could not be created. -/
  | depthBuffer (cause : DeviceError)
  /-- The engine could not be prepared for the swapchain. -/
  | engine (cause : EngineError)

namespace Failure

def message : Failure → String
  | invalidSize width height =>
    "Invalid backbuffer size " ++ wordText width ++ "x" ++ wordText height
  | config path _ => "Failed to load config: " ++ path
  | module path _ => "Failed to load module: " ++ path
  | backbuffer _ => "Failed to create backbuffer"
  | shadowMap _ => "Failed to create shadow map"
  | depthBuffer _ => "Failed to create depth buffer"
  | engine _ => "Failed to initialize runtime"

/-- The causes, each the cause of the one before. -/
def causes : Failure → List String
  | invalidSize .. => []
  | config _ cause =>
    cause.message :: match cause with
      | .unreadable cause => [cause.message]
      | .malformed cause => [cause.message]
  | module _ cause =>
    cause.message :: match cause with
      | .unreadable cause => [cause.message]
      | .malformed cause => [cause.message]
      | _ => []
  | backbuffer cause | shadowMap cause | depthBuffer cause => [cause.message]
  | engine cause =>
    cause.message :: match cause with
      | .backbuffer _ cause => [cause.message]
      | _ => []

/-- A text with blanks after every line break. -/
def indented (width : Nat) (text : String) : String :=
  ("\n" ++ String.ofList (List.replicate width ' ')).intercalate (text.splitOn "\n")

def causeText : List String → String
  | [] => ""
  | [cause] => "\n\nCaused by:\n    " ++ indented 4 cause
  | causes =>
    "\n\nCaused by:" ++ String.join (causes.zipIdx.map fun (cause, n) ↦
      let number := toString n
      "\n" ++ String.ofList (List.replicate (5 - number.length) ' ') ++ number ++ ": "
        ++ indented 7 cause)

def report (f : Failure) : String := "Error: " ++ f.message ++ causeText f.causes ++ "\n"

end Failure

end EffectChain.CommandLine
