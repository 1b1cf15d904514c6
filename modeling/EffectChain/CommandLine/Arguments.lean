/-!
# Arguments

The command line names an action, `inspect` or `run`, the files it works on, and options. A long
option takes its value after an equals sign or as the next argument; a letter takes it from the rest
of its cluster, after an equals sign or not, or as the next argument; and what follows `--` is a
file whatever it looks like. Anything out of place is a usage error: an unknown option, a missing
value, an option given twice, a number that does not fit, no file.
-/

namespace EffectChain.CommandLine

/-! ## Words -/

/-- The shape of an argument, apart from what it means. -/
inductive Word
  /-- The mark after which every argument is a file. -/
  | escape
  /-- A long option, perhaps with a value. -/
  | long (name : String) (value : Option String)
  /-- Letters that each are an option. -/
  | cluster (letters : List Char)
  /-- Anything else; a lone hyphen is no option. -/
  | plain (text : String)

def Word.ofText (text : String) : Word :=
  match text.toList with
  | ['-', '-'] => .escape
  | '-' :: '-' :: rest =>
    let name := String.ofList (rest.takeWhile (· ≠ '='))
    match rest.dropWhile (· ≠ '=') with
    | [] => .long name none
    | _ :: value => .long name (some (String.ofList value))
  | '-' :: letter :: rest => .cluster (letter :: rest)
  | _ => .plain text

/-! ## Options -/

/-- The options of a run that take a value. -/
inductive Setting
  | frames
  | width
  | height
  | samples
  | config
  | disable
  deriving DecidableEq

namespace Setting

def all : List Setting := [frames, width, height, samples, config, disable]

def name : Setting → String
  | frames => "frames"
  | width => "width"
  | height => "height"
  | samples => "samples"
  | config => "config"
  | disable => "disable"

def letter? : Setting → Option Char
  | frames => some 'n'
  | width => some 'W'
  | height => some 'H'
  | config => some 'c'
  | samples | disable => none

end Setting

/-- What was given after the name of an action. -/
structure Given where
  /-- Files, in order. -/
  files : List String := []
  /-- Options with their values, in order. -/
  settings : List (Setting × String) := []
  /-- How often more output was asked for. -/
  verbose : Nat := 0

namespace Given

def addFile (g : Given) (file : String) : Given := { g with files := g.files ++ [file] }

def addSetting (g : Given) (s : Setting) (value : String) : Given :=
  { g with settings := g.settings ++ [(s, value)] }

def addVerbose (g : Given) : Given := { g with verbose := g.verbose + 1 }

/-- Reads a cluster of letters; the option that is returned lacks its value yet. -/
def readCluster (allowed : List Setting) (g : Given) :
    List Char → Option (Given × Option Setting)
  | [] => some (g, none)
  | 'v' :: rest => readCluster allowed g.addVerbose rest
  | letter :: rest =>
    (allowed.find? fun s ↦ s.letter? = some letter).map fun s ↦
      match rest with
      | [] => (g, some s)
      | '=' :: value => (g.addSetting s (String.ofList value), none)
      | value => (g.addSetting s (String.ofList value), none)

/-- Reads the arguments after the name of an action, the first of which is the value of an option if
one is pending. -/
def read (allowed : List Setting) : Given → Option Setting → List String → Option Given
  | g, none, [] => some g
  | _, some _, [] => none
  | g, some s, text :: rest =>
    match Word.ofText text with
    | .plain value => read allowed (g.addSetting s value) none rest
    | _ => none
  | g, none, text :: rest =>
    match Word.ofText text with
    | .escape => some { g with files := g.files ++ rest }
    | .plain file => read allowed (g.addFile file) none rest
    | .long name value =>
      if name = "verbose" then
        if value.isNone then read allowed g.addVerbose none rest else none
      else
        match allowed.find? fun s ↦ s.name = name, value with
        | none, _ => none
        | some s, some value => read allowed (g.addSetting s value) none rest
        | some s, none => read allowed g (some s) rest
    | .cluster letters =>
      match readCluster allowed g letters with
      | none => none
      | some (g, pending) => read allowed g pending rest

def values (g : Given) (s : Setting) : List String :=
  (g.settings.filter fun given ↦ given.1 = s).map (·.2)

/-- Reads a number of 32 bits, which may have a sign as long as that changes nothing. -/
def readWord (text : String) : Option UInt32 :=
  let (negative, digits) := match text.toList with
    | '+' :: rest => (false, rest)
    | '-' :: rest => (true, rest)
    | rest => (false, rest)
  if digits.isEmpty || !digits.all Char.isDigit then none
  else
    let n := digits.foldl (fun n c ↦ n * 10 + (c.toNat - '0'.toNat)) 0
    -- a minus sign changes nothing in front of zero
    if n < UInt32.size ∧ (negative = false ∨ n = 0) then some (UInt32.ofNat n) else none

/-- The number that an option gives, or its default; none if it is given twice or unreadable. -/
def word (g : Given) (s : Setting) (default : UInt32) : Option UInt32 :=
  match g.values s with
  | [] => some default
  | [text] => readWord text
  | _ => none

/-- The file that an option gives, if any; none if it is given twice or empty. -/
def file (g : Given) (s : Setting) : Option (Option String) :=
  match g.values s with
  | [] => some none
  | [text] => if text = "" then none else some (some text)
  | _ => none

/-- Whether there is a file, no file name is empty, and more output was not asked for twice. -/
def isComplete (g : Given) : Bool := g.files ≠ [] && g.files.all (· ≠ "") && g.verbose ≤ 1

end Given

/-! ## Actions -/

/-- What a run is asked to do. -/
structure RunOptions where
  /-- Module files, in the order of loading. -/
  modules : List String
  /-- Frames to present. -/
  frames : UInt32 := 60
  /-- Width of the backbuffer. -/
  width : UInt32 := 1920
  /-- Height of the backbuffer. -/
  height : UInt32 := 1080
  /-- Samples of the backbuffer. -/
  samples : UInt32 := 1
  /-- Configuration file. -/
  config : Option String := none
  /-- Names of techniques to disable. -/
  disabled : List String := []

/-- What was given for a run, if it makes sense. -/
def RunOptions.ofGiven (g : Given) : Option RunOptions := do
  return {
    modules := g.files
    frames := ← g.word .frames 60
    width := ← g.word .width 1920
    height := ← g.word .height 1080
    samples := ← g.word .samples 1
    config := ← g.file .config
    disabled := g.values .disable }

/-- An action. -/
inductive Action
  /-- Lists what modules declare. -/
  | inspect (modules : List String)
  /-- Runs modules. -/
  | run (options : RunOptions)

def Action.files : Action → List String
  | .inspect modules => modules
  | .run options => options.config.toList ++ options.modules

/-- What the command line asks for. -/
inductive Invocation
  /-- The version of the program. -/
  | version
  /-- An action, perhaps with more output. -/
  | perform (action : Action) (verbose : Bool)

namespace Invocation

/-- Reads the arguments of a named action. -/
def ofAction (verbose : Bool) (name : String) (rest : List String) : Option Invocation :=
  if name = "inspect" ∨ name = "i" then do
    let given ← Given.read [] {} none rest
    if given.isComplete then return .perform (.inspect given.files) (verbose || given.verbose ≠ 0)
    else none
  else if name = "run" ∨ name = "r" then do
    let given ← Given.read Setting.all {} none rest
    let options ← RunOptions.ofGiven given
    if given.isComplete then return .perform (.run options) (verbose || given.verbose ≠ 0)
    else none
  else none

/-- What letters ahead of the action ask for: the version as soon as it is asked for, else more
output or not. -/
def readCluster (verbose : Bool) : List Char → Option (Bool × Bool)
  | [] => some (false, verbose)
  | 'V' :: _ => some (true, verbose)
  | 'v' :: rest => if verbose then none else readCluster true rest
  | _ :: _ => none

/-- Reads arguments, given whether more output was asked for already. -/
def read (verbose : Bool) : List String → Option Invocation
  | [] => none
  | text :: rest =>
    match Word.ofText text with
    | .escape => none
    | .plain name => ofAction verbose name rest
    | .long name value =>
      if value.isSome then none
      else if name = "version" then some .version
      else if name = "verbose" ∧ verbose = false then read true rest
      else none
    | .cluster letters =>
      match readCluster verbose letters with
      | none => none
      | some (true, _) => some .version
      | some (false, verbose) => read verbose rest

/-- Reads the command line; none is a usage error. -/
def parse (arguments : List String) : Option Invocation := read false arguments

end Invocation

end EffectChain.CommandLine
