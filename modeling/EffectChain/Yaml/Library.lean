import EffectChain.Bytes
import EffectChain.Enumeration
import EffectChain.Yaml.Reader

/-!
# Libraries of documents

What reads and writes documents is a parameter of all that is read from them and written to them: a
`Library` knows the nodes of a document, what a node stands for as a value of some type, and the
text of a value. Of a mapping, unknown keys are skipped and a known key is given at most once
(`Library.fields`); a key left out takes its default, or is an error if it has none. The library at
hand is `Library.builtin`.
-/

namespace EffectChain.Yaml

/-- What is written to a document: truth values, words and mappings of these. -/
inductive Data
  /-- A truth value. -/
  | bool (value : Bool)
  /-- A word. -/
  | word (value : UInt32)
  /-- A mapping, in the order of the text. -/
  | mapping (entries : List (String × Data))

/-- What reads and writes documents. -/
structure Library where
  /-- The nodes of a document. -/
  Node : Type
  /-- The root node of a text. -/
  parse : String → Except YamlError Node
  /-- Text. -/
  text : Reader String Node
  /-- The name of a variant. -/
  variant : Reader String Node
  /-- A truth value. -/
  bool : Reader Bool Node
  /-- A byte. -/
  byte : Reader UInt8 Node
  /-- A 32-bit word. -/
  word : Reader UInt32 Node
  /-- A single precision value. -/
  single : Reader Single Node
  /-- The items of a sequence. -/
  items : Reader (List Node) Node
  /-- The entries of a mapping whose keys are text. -/
  entries : Reader (List (String × Node)) Node
  /-- The text of a document. -/
  render : Data → String

/-! ## Declared records -/

/-- The entries of a mapping whose keys are text. -/
abbrev Fields (ν : Type) : Type := List (String × ν)

namespace Fields

variable {α ν : Type}

/-- The value of a key, or `default` if it is left out. -/
def optional (fields : Fields ν) (key : String) (read : Reader α ν) (default : α) :
    Except YamlError α :=
  match fields.lookup key with
  | some node => read node
  | none => .ok default

/-- The value of a key that has no default. -/
def required (fields : Fields ν) (key : String) (read : Reader α ν) : Except YamlError α :=
  match fields.lookup key with
  | some node => read node
  | none => .error (.missingKey key)

end Fields

namespace Library

variable (yaml : Library)

/-- A member of an enumeration, by its name. -/
def member (α : Type) [Enumeration α] : Reader α yaml.Node := fun node ↦ do
  match Enumeration.ofName? α (← yaml.variant node) with
  | some a => return a
  | none => throw (.wrongKind "a known variant")

def list {α : Type} (item : Reader α yaml.Node) : Reader (List α) yaml.Node := fun node ↦ do
  (← yaml.items node).mapM item

def bytes : Reader Bytes yaml.Node := fun node ↦ (yaml.list yaml.byte node).map Bytes.ofList

/-- The entries of a mapping in which no known key is given twice. -/
def fields (known : List String) : Reader (Fields yaml.Node) yaml.Node := fun node ↦ do
  let fields ← yaml.entries node
  match known.find? fun key ↦ 1 < fields.countP fun field ↦ field.1 = key with
  | some key => throw (.duplicateKey key)
  | none => return fields

end Library

/-! ## The library at hand -/

namespace Node

def ofBool (b : Bool) : Node := .plain (if b then "true" else "false")

def ofWord (n : UInt32) : Node := .plain (toString n.toNat)

mutual

/-- What is written as a node. A mapping without entries is an empty place. -/
def ofData : Data → Node
  | .bool b => .ofBool b
  | .word n => .ofWord n
  | .mapping [] => .empty
  | .mapping (entry :: rest) => .mapping (ofEntry entry :: ofEntries rest)

def ofEntries : List (String × Data) → List (Node × Node)
  | [] => []
  | entry :: rest => ofEntry entry :: ofEntries rest

def ofEntry : String × Data → Node × Node
  | (key, value) => (.plain key, ofData value)

end

end Node

/-- Documents in block or flow style with plain and quoted scalars, written in block style. -/
def Library.builtin : Library where
  Node := Yaml.Node
  parse := Yaml.Node.parse
  text := Yaml.text
  variant := Yaml.variant
  bool := Yaml.bool
  byte := Yaml.byte
  word := Yaml.word
  single := Yaml.single
  items := Yaml.items
  entries := Yaml.entries
  render data := (Yaml.Node.ofData data).render

end EffectChain.Yaml
