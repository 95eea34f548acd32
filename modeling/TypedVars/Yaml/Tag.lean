import TypedVars.Number.Hexadecimal

/-!
# Tags

A tag names the kind of value that a node is. It is an address of characters and escapes, each of
which stands for one byte, so it is held as bytes. The tags of the format itself name the kinds that
plain scalars can have, and a tag that starts with an exclamation mark is local to its document.
-/

set_option autoImplicit false

namespace TypedVars.Yaml

/-! ## Addresses -/

/-- The number of bytes of an encoded character, from its first byte. -/
def encodedLength? (first : Nat) : Option Nat :=
  if first < 0x80 then some 1
  else if 0xC0 ≤ first ∧ first < 0xE0 then some 2
  else if 0xE0 ≤ first ∧ first < 0xF0 then some 3
  else if 0xF0 ≤ first ∧ first < 0xF8 then some 4
  else none

/-- The number of continuation bytes that an escape leaves to come: as many as its byte asks for
when none is pending, and one less when it is a continuation byte itself. -/
def pendingBehind? (pending byte : Nat) : Option Nat :=
  if pending = 0 then (encodedLength? byte).map (· - 1)
  else if 0x80 ≤ byte ∧ byte < 0xC0 then some (pending - 1)
  else none

/-- The bytes that an address stands for. Its characters have one byte, and its escapes have to
encode whole characters, of which `pending` continuation bytes are still to come. -/
def addressBytes? : Nat → Text → Option (List UInt8)
  | pending, [] => if pending = 0 then some [] else none
  | pending, '%' :: high :: low :: rest => do
    let byte ← Hexadecimal.toNat? [high, low]
    let left ← pendingBehind? pending byte
    let behind ← addressBytes? left rest
    return byte.toUInt8 :: behind
  | pending, c :: rest =>
    if c = '%' ∨ pending ≠ 0 then none else (addressBytes? 0 rest).map (c.toUInt8 :: ·)

/-- What counts of the bytes of an address: those in front of the first zero byte. -/
def upToZero (bytes : List UInt8) : List UInt8 := bytes.takeWhile (· != 0)

/-- The bytes of a text of characters with one byte. -/
def shortBytes (text : Text) : List UInt8 := text.map Char.toUInt8

/-! ## Tags -/

/-- A tag, by its bytes. -/
structure Tag where
  /-- The bytes of its address. -/
  bytes : List UInt8
deriving DecidableEq, Repr

/-- The start of the tags of the format itself. -/
def coreAddress : List UInt8 := shortBytes "tag:yaml.org,2002:".toList

/-- The tags of the format itself that scalars can have besides that of strings. -/
inductive CoreTag where
  /-- A truth value. -/
  | boolean
  /-- A whole number. -/
  | integer
  /-- A number. -/
  | float
  /-- Nothing. -/
  | null
deriving DecidableEq, Repr

namespace CoreTag

/-- Every core tag. -/
def all : List CoreTag := [.boolean, .integer, .float, .null]

/-- The name of a core tag. -/
def name : CoreTag → Text
  | .boolean => "bool".toList
  | .integer => "int".toList
  | .float => "float".toList
  | .null => "null".toList

/-- A core tag in full. -/
def tag (core : CoreTag) : Tag := ⟨coreAddress ++ shortBytes core.name⟩

/-- What a text has to be under a core tag, in messages. -/
def expected : CoreTag → Text
  | .boolean => "a boolean".toList
  | .integer => "an integer".toList
  | .float => "a float".toList
  | .null => "null".toList

end CoreTag

namespace Tag

/-- The tag of a lone exclamation mark. -/
def nonSpecific : Tag := ⟨shortBytes ['!']⟩

/-- The core tag that a tag is. -/
def core? (tag : Tag) : Option CoreTag := CoreTag.all.find? fun core => core.tag == tag

/-- A tag is local to its document. -/
def isLocal (tag : Tag) : Bool := tag.bytes.head? == some '!'.toUInt8

/-- A local tag that is a text in UTF-8 names a variant of an enumeration. -/
def namesVariant (tag : Tag) : Bool :=
  tag.isLocal && (ByteArray.mk tag.bytes.toArray).validateUTF8

end Tag

end TypedVars.Yaml
