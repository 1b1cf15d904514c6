import EffectChain.Folder
import EffectChain.Module.Basic
import EffectChain.Yaml.Error

/-!
# Module validation

A module is consistent if its entry points have different names, every pass draws with entry points
of the right stage into at most eight targets, and every sampler reads a declared texture.
`EffectModule.violations` lists all that is wrong, in the order entry points, passes, samplers, and
`EffectModule.validate` reports the first. Target names are not checked here: another loaded effect
may declare them.
-/

namespace EffectChain

/-- Why a module cannot be used. -/
inductive ModuleError
  /-- The file cannot be read. -/
  | unreadable (cause : ReadError)
  /-- The text is not a module document. -/
  | malformed (cause : Yaml.YamlError)
  /-- There is no such file. -/
  | fileNotFound (path : String)
  /-- Two entry points share a name. -/
  | duplicateEntryPoint (name : String)
  /-- A pass draws with an entry point that is missing or of the other stage. -/
  | unknownEntryPoint (technique : String) (pass : Nat) (stage : ShaderStage) (name : String)
  /-- A pass names too many targets. -/
  | tooManyRenderTargets (technique : String) (pass : Nat) (count : Nat)
  /-- A sampler reads a texture that the module does not declare. -/
  | unknownTexture (sampler : String) (texture : String)
  deriving DecidableEq

namespace ModuleError

def message : ModuleError → String
  | unreadable cause => "I/O error: " ++ cause.message
  | malformed cause => "YAML parse error: " ++ cause.message
  | fileNotFound path => "module file not found: " ++ path
  | duplicateEntryPoint name => "duplicate entry point '" ++ name ++ "'"
  | unknownEntryPoint technique pass stage name =>
    "pass " ++ toString pass ++ " in technique '" ++ technique ++ "' refers to unknown "
      ++ Enumeration.name stage ++ " entry point '" ++ name ++ "'"
  | tooManyRenderTargets technique pass count =>
    "pass " ++ toString pass ++ " in technique '" ++ technique ++ "' names " ++ toString count
      ++ " render targets (limit " ++ toString maxRenderTargets ++ ")"
  | unknownTexture sampler texture =>
    "sampler '" ++ sampler ++ "' refers to unknown texture '" ++ texture ++ "'"

end ModuleError

namespace EffectModule

/-! ## Violations -/

/-- The names of the list that occur earlier in it, or among `seen`. -/
def repeats (seen : List String) : List String → List String
  | [] => []
  | name :: rest =>
    if name ∈ seen then name :: repeats seen rest else repeats (name :: seen) rest

/-- Whether the first entry point of the name was compiled for the stage. -/
def hasEntryPoint (m : EffectModule) (stage : ShaderStage) (name : String) : Bool :=
  (m.entryPoint? name).any fun e ↦ e.stage = stage

def passViolations (m : EffectModule) (technique : String) (pass : PassDecl) (index : Nat) :
    List ModuleError :=
  (if m.hasEntryPoint .vertex pass.vertexEntry then []
    else [.unknownEntryPoint technique index .vertex pass.vertexEntry])
  ++ (if m.hasEntryPoint .pixel pass.pixelEntry then []
    else [.unknownEntryPoint technique index .pixel pass.pixelEntry])
  ++ (if pass.targetNames.length ≤ maxRenderTargets then []
    else [.tooManyRenderTargets technique index pass.targetNames.length])

/-- What is wrong with the passes of one technique. -/
def techniqueViolations (m : EffectModule) (technique : TechniqueDecl) : List ModuleError :=
  technique.passes.zipIdx.flatMap fun (pass, index) ↦ m.passViolations technique.name pass index

def samplerViolations (m : EffectModule) (sampler : SamplerDecl) : List ModuleError :=
  if (m.texture? sampler.textureName).isSome then []
  else [.unknownTexture sampler.name sampler.textureName]

/-- All that is wrong with the module, in the order of report. -/
def violations (m : EffectModule) : List ModuleError :=
  (repeats [] (m.entryPoints.map (·.name))).map .duplicateEntryPoint
    ++ m.techniques.flatMap m.techniqueViolations
    ++ m.samplers.flatMap m.samplerViolations

/-- Accepts a module with no violation, and reports the first one otherwise. -/
def validate (m : EffectModule) : Except ModuleError Unit :=
  match m.violations with
  | [] => .ok ()
  | e :: _ => .error e

theorem validate_eq_ok_iff (m : EffectModule) : m.validate = .ok () ↔ m.violations = [] := by
  unfold validate
  split <;> simp_all

theorem repeats_eq_nil_iff (seen names : List String) :
    repeats seen names = [] ↔ names.Nodup ∧ ∀ n ∈ names, n ∉ seen := by
  induction names generalizing seen with
  | nil => simp [repeats]
  | cons n rest ih =>
    unfold repeats
    split
    · simp_all
    · rename_i h
      rw [ih, List.nodup_cons]
      constructor
      · rintro ⟨hnd, hall⟩
        have hn : n ∉ rest := fun hmem ↦ by simpa using hall n hmem
        refine ⟨⟨hn, hnd⟩, ?_⟩
        intro k hk
        rcases List.mem_cons.mp hk with rfl | hk
        · exact h
        · exact fun hs ↦ hall k hk (List.mem_cons_of_mem _ hs)
      · rintro ⟨⟨hn, hnd⟩, hall⟩
        refine ⟨hnd, fun k hk hs ↦ ?_⟩
        rcases List.mem_cons.mp hs with rfl | hs
        · exact hn hk
        · exact hall k (List.mem_cons_of_mem _ hk) hs

end EffectModule

end EffectChain
