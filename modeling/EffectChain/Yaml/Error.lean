/-!
# Failures of a document

A document that cannot be read fails with a wording. A reader words its failures as it likes, so a
failure is nothing but its wording; below are the failures of the reader of this library.
-/

namespace EffectChain.Yaml

/-- Why a text is not a document of the expected shape. -/
structure YamlError where
  /-- The wording of the error. -/
  message : String
  deriving DecidableEq

namespace YamlError

/-- A character that no document may hold. -/
def forbiddenCharacter (c : Char) : YamlError :=
  ⟨"control character " ++ toString c.toNat ++ " is not allowed"⟩

/-- A character that starts no token where it stands. -/
def unexpectedCharacter (c : Char) : YamlError := ⟨"unexpected character '" ++ c.toString ++ "'"⟩

def unknownEscape : YamlError := ⟨"unknown escape sequence"⟩

def unterminatedQuote : YamlError := ⟨"unterminated quoted scalar"⟩

/-- What must be a key, without a colon behind it. -/
def keyWithoutColon : YamlError := ⟨"expected ':' after a key"⟩

def unexpectedToken : YamlError := ⟨"unexpected token"⟩

def secondDocument : YamlError := ⟨"more than one document"⟩

/-- A value of another kind than the one expected. -/
def wrongKind (expected : String) : YamlError := ⟨"invalid type, expected " ++ expected⟩

def duplicateKey (key : String) : YamlError := ⟨"duplicate field " ++ key⟩

def missingKey (key : String) : YamlError := ⟨"missing field " ++ key⟩

end YamlError

end EffectChain.Yaml
