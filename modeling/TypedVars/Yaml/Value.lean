import TypedVars.Number.Layout
import TypedVars.Number.Numeral
import TypedVars.Text.Quoted
import TypedVars.Yaml.Tag

/-!
# Values of a document

A plain scalar stands for nothing, a truth value, a number or itself, by its spelling; a scalar of
another style is a string. A core tag decides the kind whatever the style, and the spelling has to
suit it. Whole numbers keep whether they were written with a minus sign.
-/

set_option autoImplicit false

namespace TypedVars.Yaml

/-- What a node of a document stands for. -/
inductive Value where
  /-- Nothing. -/
  | unit
  /-- A truth value. -/
  | boolean (value : Bool)
  /-- A whole number without a minus sign. -/
  | natural (value : Nat)
  /-- A whole number with a minus sign, by its magnitude. -/
  | negative (magnitude : Nat)
  /-- A number with a fraction or an exponent. -/
  | float (value : Binary64)
  /-- A string. -/
  | string (text : Text)
  /-- A sequence. -/
  | sequence (items : List Value)
  /-- A mapping, in the order of the document and with repeated keys. -/
  | mapping (pairs : List (Value × Value))

/-- The digits of a whole number behind the mark of its base. -/
def basedDigits? : Text → Option (Nat × Text)
  | '0' :: 'x' :: digits => some (16, digits)
  | '0' :: 'o' :: digits => some (8, digits)
  | '0' :: 'b' :: digits => some (2, digits)
  | _ => none

/-- The number that digits denote in a base up to sixteen; there has to be a digit. -/
def basedNumber? (base : Nat) (digits : Text) : Option Nat :=
  if digits.isEmpty then none
  else
    digits.foldlM
      (fun value c => ((Hexadecimal.toDigit? c).filter (· < base)).map (base * value + ·)) 0

/-- Digits with a zero in front of others; they write no number. -/
def hasLeadingZero (text : Text) : Bool :=
  match (Digits.splitSign text).2 with
  | '0' :: c :: rest => (c :: rest).all Text.isDigit
  | _ => false

/-- The magnitude of a whole number without its sign. -/
def magnitude? (text : Text) : Option Nat :=
  match basedDigits? text with
  | some (base, digits) => basedNumber? base digits
  | none => if hasLeadingZero text then none else basedNumber? 10 text

/-- The whole number that a plain scalar writes, within one hundred and twenty-eight bits. -/
def wholeNumber? (text : Text) : Option Value :=
  match text with
  | '-' :: rest => ((magnitude? rest).filter (· ≤ Nat.pow 2 127)).map .negative
  | '+' :: rest => ((magnitude? rest).filter (· < Nat.pow 2 128)).map .natural
  | other => ((magnitude? other).filter (· < Nat.pow 2 128)).map .natural

/-- The spellings of infinity. -/
def infinityWords : List Text := [['.', 'i', 'n', 'f'], ['.', 'I', 'n', 'f'], ['.', 'I', 'N', 'F']]

/-- The spellings of what is no number. -/
def nanWords : List Text := [['.', 'n', 'a', 'n'], ['.', 'N', 'a', 'N'], ['.', 'N', 'A', 'N']]

/-- The finite number that a numeral writes. -/
def finiteNumber? (text : Text) : Option Binary64 :=
  match Binary.ofText? Format.binary64 text with
  | some (.finite negative rank) => some (.finite negative rank)
  | _ => none

/-- The number that a text writes, whole or not. -/
def number? (text : Text) : Option Binary64 :=
  if nanWords.contains text then some .nan
  else
    match text with
    | '+' :: '+' :: _ => none
    | '+' :: '-' :: _ => none
    | '+' :: rest =>
      if infinityWords.contains rest then some (.infinity false) else finiteNumber? rest
    | '-' :: rest =>
      if infinityWords.contains rest then some (.infinity true) else finiteNumber? text
    | other => if infinityWords.contains other then some (.infinity false) else finiteNumber? other

/-- The number that a plain scalar writes, other than a whole one. -/
def floatNumber? (text : Text) : Option Binary64 :=
  if hasLeadingZero text then none else number? text

/-- The spellings of nothing. -/
def nullWords : List Text :=
  [['~'], ['n', 'u', 'l', 'l'], ['N', 'u', 'l', 'l'], ['N', 'U', 'L', 'L']]

/-- The spellings of truth. -/
def trueWords : List Text :=
  [['t', 'r', 'u', 'e'], ['T', 'r', 'u', 'e'], ['T', 'R', 'U', 'E']]

/-- The spellings of falsehood. -/
def falseWords : List Text :=
  [['f', 'a', 'l', 's', 'e'], ['F', 'a', 'l', 's', 'e'], ['F', 'A', 'L', 'S', 'E']]

/-- The truth value that a text spells. -/
def truthValue? (text : Text) : Option Bool :=
  if trueWords.contains text then some true
  else if falseWords.contains text then some false
  else none

/-- What a text stands for under a core tag, unless its spelling does not suit that. -/
def CoreTag.value? (core : CoreTag) (text : Text) : Option Value :=
  match core with
  | .boolean => (truthValue? text).map .boolean
  | .integer => wholeNumber? text
  | .float => (number? text).map .float
  | .null => if nullWords.contains text then some .unit else none

namespace Value

/-- What a plain scalar stands for. Nothing may be left out as well as spelt. -/
def ofPlain (text : Text) : Value :=
  if text.isEmpty || nullWords.contains text then .unit
  else
    match truthValue? text with
    | some value => .boolean value
    | none =>
      match wholeNumber? text with
      | some number => number
      | none =>
        match floatNumber? text with
        | some number => .float number
        | none => .string text

/-- What a scalar without a tag stands for. -/
def ofStyle (text : Text) (plain : Bool) : Value := if plain then ofPlain text else .string text

/-- What a scalar stands for, or the core tag that its spelling does not suit. Under a tag that is
neither a core tag nor local it is a string. -/
def ofScalar (tag : Option Tag) (text : Text) (plain : Bool) : Except CoreTag Value :=
  match tag with
  | none => .ok (ofStyle text plain)
  | some tag =>
    match tag.core? with
    | some core => (core.value? text).elim (.error core) .ok
    | none => .ok (if tag.isLocal then ofStyle text plain else .string text)

/-- The text of a whole number. -/
def wholeText (number : Text) : Text := "integer \x60".toList ++ number ++ "\x60".toList

/-- Names a value in a message. -/
def described : Value → Text
  | .unit => "unit value".toList
  | .boolean true => "boolean \x60true\x60".toList
  | .boolean false => "boolean \x60false\x60".toList
  | .natural value => wholeText (Digits.ofNat value)
  | .negative magnitude => wholeText (Digits.ofInt (-(magnitude : Int)))
  | .float value => "floating point \x60".toList ++ Layout.reported.text value ++ "\x60".toList
  | .string text => "string ".toList ++ Text.quoted text
  | .sequence _ => "sequence".toList
  | .mapping _ => "map".toList

/-- Names a whole number that is too wide for sixty-four bits, with the width it needs; there is
none for another value. -/
def wideDescription? : Value → Option Text
  | .natural value =>
    if value < Nat.pow 2 64 then none
    else some (wholeText (Digits.ofNat value) ++ " as u128".toList)
  | .negative magnitude =>
    if magnitude ≤ Nat.pow 2 63 then none
    else some (wholeText (Digits.ofInt (-(magnitude : Int))) ++ " as i128".toList)
  | _ => none

end Value

end TypedVars.Yaml
