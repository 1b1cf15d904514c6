import EffectChain.CommandLine.Listing
import EffectChain.CommandLine.Simulation

/-!
# The program

What a command line does is a function of the arguments and of the files they name: the exit code
and the text on either stream. An action that stops with a failure keeps what it has written before.
-/

namespace EffectChain.CommandLine

open Yaml

/-- What the program leaves behind. -/
structure Outcome where
  /-- Exit code: zero for success, one for a failed action, two for a usage error. -/
  code : Nat := 0
  /-- Text on the standard output. -/
  output : String := ""
  /-- Text on the standard error output. -/
  errors : String := ""
deriving DecidableEq

/-- The outcome of a failure after some text. -/
def Outcome.ofFailure (f : Failure) (output errors : String) : Outcome :=
  { code := 1, output, errors := errors ++ f.report }

def versionText : String := "postfx 0.1.0\n"

def usageText : String := "Usage: postfx [OPTIONS] <COMMAND>\n"

/-- Lists the modules in files, with a blank line ahead of all but the first. Stops at a file that
is no valid module. -/
def inspectAll (files : String → Option Entry) (verbose : Bool) (yaml : Library) :
    Bool → List String → String × Option Failure
  | _, [] => ("", none)
  | first, path :: rest =>
    let gap := if first then "" else "\n"
    match EffectModule.load path (files path) (EffectModule.read yaml) with
    | .error cause => (gap, some (.module path cause))
    | .ok m =>
      let (text, failure) := inspectAll files verbose yaml false rest
      (gap ++ joinLines (path :: moduleLines verbose m) ++ text, failure)

def inspect (files : String → Option Entry) (verbose : Bool) (modules : List String)
    (yaml : Library := .builtin) : Outcome :=
  match inspectAll files verbose yaml true modules with
  | (output, none) => { output }
  | (output, some failure) => .ofFailure failure output ""

/-- The configuration of a run: the defaults, or what a file says. -/
def readConfig (files : String → Option Entry) (yaml : Library) :
    Option String → Except Failure Config
  | none => .ok {}
  | some path => (Config.load (files path) yaml).mapError (.config path)

def run (files : String → Option Entry) (verbose : Bool) (o : RunOptions)
    (yaml : Library := .builtin) : Outcome :=
  if o.width = 0 ∨ o.height = 0 then .ofFailure (.invalidSize o.width o.height) "" ""
  else
    match (readConfig files yaml o.config).bind (prepareEngine o) with
    | .error failure => .ofFailure failure "" ""
    | .ok (engine, scene) =>
      let (lines, loaded) := loadModules files yaml engine o.modules
      match loaded with
      | .error failure => .ofFailure failure "" (joinLines lines)
      | .ok engine =>
        let engine := disableAll engine o.disabled
        let engine := presentFrames scene.tracker o.frames.toNat engine
        { output := joinLines (reportLines engine scene verbose), errors := joinLines lines }

def perform (files : String → Option Entry) (invocation : Option Invocation)
    (yaml : Library := .builtin) : Outcome :=
  match invocation with
  | none => { code := 2, errors := usageText }
  | some .version => { output := versionText }
  | some (.perform (.inspect modules) verbose) => inspect files verbose modules yaml
  | some (.perform (.run options) verbose) => run files verbose options yaml

end EffectChain.CommandLine
