/-!
# Named enumerations

Formats, blend factors, filters and the like are small closed sets whose members have a written
name. `Enumeration` lists the members in declaration order with the name each is written by; the
reader, the position used as a code and the capitalised display form follow from the list.
-/

namespace EffectChain

/-- A finite type whose members are listed in order and have pairwise different names. -/
class Enumeration (α : Type) where
  /-- The members, in declaration order. -/
  members : List α
  /-- The name a member is written by. -/
  name : α → String

namespace Enumeration

/-- The member written `text`, if there is one. -/
def ofName? (α : Type) [Enumeration α] (text : String) : Option α :=
  (members (α := α)).find? fun member ↦ name member = text

/-- The position of a member in declaration order, as a byte. -/
def code {α : Type} [Enumeration α] [DecidableEq α] (member : α) : UInt8 :=
  UInt8.ofNat (members.idxOf member)

/-- `text` with a capital at its start and after each underscore, the underscores left out. -/
def titleCase (text : String) : String :=
  String.join ((text.splitOn "_").map String.capitalize)

/-- The name for display, in words run together: `inv_src_alpha` is shown as `InvSrcAlpha`. -/
def title {α : Type} [Enumeration α] (member : α) : String := titleCase (name member)

end Enumeration

end EffectChain
