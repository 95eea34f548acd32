import TypedVars.Number.Digits
import TypedVars.Yaml.Scalar
import TypedVars.Yaml.Tag

/-!
# Tokens of YAML text

Tokens are the indicators, properties and scalars of YAML text, together with the starts and ends of
block collections, which only the indentation shows. Properties and directives are read here; they
consist of name characters, handles and addresses. Each token of a text is kept with its place.
-/

set_option autoImplicit false

namespace TypedVars.Yaml

/-- A token. -/
inductive Token where
  /-- A directive that gives the version of the format. -/
  | versionDirective (major minor : Nat)
  /-- A directive that declares a handle of tags, by the address that it stands for. -/
  | tagDirective (handle : Text) (address : List UInt8)
  /-- Three hyphens. -/
  | documentStart
  /-- Three points. -/
  | documentEnd
  /-- The end of the text. -/
  | streamEnd
  /-- The indentation starts a sequence. -/
  | blockSequenceStart
  /-- The indentation starts a mapping. -/
  | blockMappingStart
  /-- The indentation ends a collection. -/
  | blockEnd
  /-- An opening bracket. -/
  | flowSequenceStart
  /-- A closing bracket. -/
  | flowSequenceEnd
  /-- An opening brace. -/
  | flowMappingStart
  /-- A closing brace. -/
  | flowMappingEnd
  /-- A hyphen. -/
  | blockEntry
  /-- A comma. -/
  | flowEntry
  /-- A question mark, or the place in front of a simple key. -/
  | key
  /-- A colon. -/
  | value
  /-- A reference to an anchor. -/
  | alias (name : Text)
  /-- A name for the node that follows. -/
  | anchor (name : Text)
  /-- A tag of the node that follows, by the handle it uses and the address behind that; a verbatim
  tag has no handle. -/
  | tag (handle : Text) (address : List UInt8)
  /-- A scalar, plain or of another style. -/
  | scalar (text : Text) (plain : Bool)
deriving DecidableEq, Repr

/-- A token of a text and where it starts. -/
structure Placed where
  /-- The token. -/
  token : Token
  /-- The place of its first character. -/
  position : Position
deriving DecidableEq, Repr

/-- Characters that may follow the name of an anchor. -/
def endsAnchor (text : Text) : Bool :=
  atGap text ||
    match text with
    | [] => true
    | c :: _ => ['?', ':', ',', ']', '\x7d', '%', '@', '\x60'].contains c

/-- Reads the name of an anchor or alias behind its indicator. -/
def anchorName? (cursor : Cursor) : Option (Text × Cursor) :=
  let name := cursor.rest.takeWhile isNameChar
  let ended := cursor.move name.length
  if name.isEmpty || !endsAnchor ended.rest then none else some (name, ended)

/-- The characters of an address besides name characters and escapes. Commas and brackets belong to
verbatim tags and to directives only. -/
def isAddressChar (verbatim : Bool) (c : Char) : Bool :=
  isNameChar c ||
    [';', '/', '?', ':', '@', '&', '=', '+', '$', '.', '%', '!', '~', '*', '\'', '(',
      ')'].contains c ||
    (verbatim && [',', '[', ']'].contains c)

/-- Reads an address and gives its bytes. -/
def address? (verbatim : Bool) (cursor : Cursor) : Option (List UInt8 × Cursor) :=
  let address := cursor.rest.takeWhile (isAddressChar verbatim)
  (addressBytes? 0 address).map fun bytes => (bytes, cursor.move address.length)

/-- Reads the handle of a tag: an exclamation mark and perhaps name characters with another one. -/
def tagHandle? (cursor : Cursor) : Option (Text × Cursor) :=
  match cursor.rest with
  | '!' :: rest =>
    let name := rest.takeWhile isNameChar
    let closed := atChar '!' (rest.drop name.length)
    let handle := '!' :: name ++ (if closed then ['!'] else [])
    some (handle, cursor.move handle.length)
  | _ => none

/-- A tag has to be followed by a gap, or by a comma in a flow collection. -/
def endsTag (inFlow : Bool) (text : Text) : Bool := atGap text || (inFlow && atChar ',' text)

/-- Reads a verbatim tag, an address between angle brackets. -/
def verbatimTag? (cursor : Cursor) : Option (Token × Cursor) := do
  let (address, ended) ← address? true (cursor.move 2)
  if address.isEmpty || !atChar '>' ended.rest then none
  return (.tag [] (upToZero address), ended.move 1)

/-- Reads a tag with a handle. A name without a closing exclamation mark belongs to the address, and
the handle is then a single exclamation mark, which is a tag of its own without an address. -/
def shorthandTag? (cursor : Cursor) : Option (Token × Cursor) := do
  let (handle, behind) ← tagHandle? cursor
  if 2 ≤ handle.length && handle.getLast? == some '!' then
    let (address, ended) ← address? false behind
    if address.isEmpty then none else return (.tag handle (upToZero address), ended)
  else
    let (address, ended) ← address? false (cursor.move 1)
    if (upToZero address).isEmpty then return (.tag [] Tag.nonSpecific.bytes, ended)
    else return (.tag ['!'] (upToZero address), ended)

/-- Reads a tag. -/
def tag? (inFlow : Bool) (cursor : Cursor) : Option (Token × Cursor) := do
  let (token, ended) ←
    if ['!', '<'].isPrefixOf cursor.rest then verbatimTag? cursor else shorthandTag? cursor
  if endsTag inFlow ended.rest then some (token, ended) else none

/-- Reads a version number of at most nine digits. -/
def versionNumber? (cursor : Cursor) : Option (Nat × Cursor) :=
  let digits := cursor.rest.takeWhile Text.isDigit
  if digits.isEmpty || 9 < digits.length then none
  else some (Digits.toNat digits, cursor.move digits.length)

/-- Reads the handle and the address of a directive on tags. -/
def tagDirective? (cursor : Cursor) : Option (Token × Cursor) := do
  let (handle, behind) ← tagHandle? cursor
  if handle ≠ ['!'] ∧ handle.getLast? ≠ some '!' then none
  let spaced := behind.skipSpaces
  if spaced.index = behind.index then none
  let (address, ended) ← address? true spaced
  if address.isEmpty || !atGap ended.rest then none
  return (.tagDirective handle (upToZero address), ended)

/-- Reads the version of a directive on the format. -/
def versionDirective? (cursor : Cursor) : Option (Token × Cursor) := do
  let (major, point) ← versionNumber? cursor
  if !atChar '.' point.rest then none
  let (minor, ended) ← versionNumber? (point.move 1)
  return (.versionDirective major minor, ended)

/-- Reads a directive behind its percent sign, up to the next line. -/
def directive? (cursor : Cursor) : Option (Token × Cursor) := do
  let name := cursor.rest.takeWhile isNameChar
  let behind := cursor.move name.length
  if !atGap behind.rest then none
  let (token, ended) ←
    if name = ['Y', 'A', 'M', 'L'] then versionDirective? behind.skipSpaces
    else if name = ['T', 'A', 'G'] then tagDirective? behind.skipSpaces
    else none
  let spaced := ended.skipSpaces
  let ended := if atChar '#' spaced.rest then spaced.skipComment else spaced
  if atLineEnd ended.rest then return (token, ended.nextLine) else none

end TypedVars.Yaml
