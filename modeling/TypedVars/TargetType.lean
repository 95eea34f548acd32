import TypedVars.Number.Integer
import TypedVars.Number.Layout

/-!
# Target types

The declared type of a variable decides how a computed number is stored. Integer types round or
truncate and refuse what sixty-four bits cannot hold, floating-point types store the shortest digits
that read back, and the other types store no numbers.
-/

set_option autoImplicit false

namespace TypedVars

/-- The declared type of a variable. -/
inductive TargetType where
  /-- Truth values. -/
  | boolean
  /-- Integers, rounded to the nearest. -/
  | int
  /-- Integers, truncated. -/
  | long
  /-- Numbers of thirty-two bits. -/
  | float
  /-- Numbers of sixty-four bits. -/
  | double
  /-- Any text. -/
  | string
deriving DecidableEq, Repr

namespace TargetType

/-- The tag that names a type. -/
def tag : TargetType → Text
  | .boolean => ['B', 'O', 'O', 'L', 'E', 'A', 'N']
  | .int => ['I', 'N', 'T']
  | .long => ['L', 'O', 'N', 'G']
  | .float => ['F', 'L', 'O', 'A', 'T']
  | .double => ['D', 'O', 'U', 'B', 'L', 'E']
  | .string => ['S', 'T', 'R', 'I', 'N', 'G']

/-- Every type. -/
def all : List TargetType := [.boolean, .int, .long, .float, .double, .string]

/-- The upper-case form of a character, as far as it consists of letters of ASCII. The dotless i,
the long s, the sharp s and the ligatures of f and s have such a form; a character that has none
cannot be part of a tag and is kept. -/
def upperCase (c : Char) : Text :=
  if 'a' ≤ c ∧ c ≤ 'z' then [Char.ofNat (c.toNat - 32)]
  else match c with
    | '\u0131' => ['I']
    | '\u017F' => ['S']
    | '\u00DF' => ['S', 'S']
    | '\uFB00' => ['F', 'F']
    | '\uFB01' => ['F', 'I']
    | '\uFB02' => ['F', 'L']
    | '\uFB03' => ['F', 'F', 'I']
    | '\uFB04' => ['F', 'F', 'L']
    | '\uFB05' => ['S', 'T']
    | '\uFB06' => ['S', 'T']
    | other => [other]

/-- The type that a tag names, in any case. -/
def ofTag? (text : Text) : Option TargetType :=
  all.find? fun type => type.tag == text.flatMap upperCase

/-- The tag of a type is read back. -/
theorem ofTag?_tag (type : TargetType) : ofTag? type.tag = some type := by
  cases type <;> decide

/-- A tag that names no type. -/
structure UnknownTag where
  /-- The tag as it was given. -/
  tag : Text
deriving DecidableEq, Repr

/-- The wording for a tag that names no type. -/
def UnknownTag.message (unknown : UnknownTag) : Text :=
  "Unknown target type: ".toList ++ unknown.tag

/-- Reads a tag, or tells which tag is unknown. -/
def ofTag (text : Text) : Except UnknownTag TargetType :=
  match ofTag? text with
  | some type => .ok type
  | none => .error ⟨text⟩

/-- The text that a variable stores for a number. Types without numbers store none, and integer
types store none for what is no number in range. -/
def formatNumber : TargetType → Binary64 → Option Text
  | .int, value => (value.roundToInt?.filter fitsInt64).map Digits.ofInt
  | .long, value => (value.truncateToInt?.filter fitsInt64).map Digits.ofInt
  | .double, value => some (Layout.stored.text value)
  | .float, value => some (Layout.stored.text (value.convert Format.binary32))
  | .boolean, _ => none
  | .string, _ => none

end TargetType

end TypedVars
