import EffectChain.Bytes

/-!
# The 32-bit FNV-1a hash

State descriptors are found by a hash of their fields. Each byte is mixed in by an exclusive or and
a multiplication, and words are hashed as their bytes, low byte first.
-/

namespace EffectChain

namespace Fnv

def basis : UInt32 := 2166136261

def step (hash : UInt32) (byte : UInt8) : UInt32 := (hash ^^^ byte.toUInt32) * 16777619

def mix (hash : UInt32) (bytes : List UInt8) : UInt32 := bytes.foldl step hash

def hash (bytes : List UInt8) : UInt32 := mix basis bytes

def hashBytes (bytes : Bytes) : UInt32 := bytes.foldl step basis

end Fnv

end EffectChain
