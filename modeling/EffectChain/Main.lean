import EffectChain.CommandLine.Program

/-!
# The executable

Reads the files that the command line names, and prints what the program leaves behind.
-/

namespace EffectChain.CommandLine

/-- What the paths lead to, as far as they lead anywhere. -/
def readFiles (paths : List String) : IO (List (String × Entry)) :=
  paths.filterMapM fun (path : String) ↦ do
    try
      return some (path, .file (← IO.FS.readBinFile path))
    catch
      -- the number of the error of reading a folder
      | .inappropriateType _ 21 _ => return some (path, .folder)
      | _ => return none

def execute (arguments : List String) : IO UInt32 := do
  let invocation := Invocation.parse arguments
  let paths := match invocation with
    | some (.perform action _) => action.files
    | _ => []
  let contents ← readFiles paths
  let outcome := perform (fun path ↦ contents.lookup path) invocation
  (← IO.getStdout).putStr outcome.output
  (← IO.getStderr).putStr outcome.errors
  return UInt32.ofNat outcome.code

end EffectChain.CommandLine

def main (arguments : List String) : IO UInt32 := EffectChain.CommandLine.execute arguments
