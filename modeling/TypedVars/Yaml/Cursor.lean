import TypedVars.Text.Basic

/-!
# Reading YAML text

The characters of YAML text fall into a few classes, and a cursor walks through them. It counts the
bytes read, the lines and the column, because indentation, in characters, and the extent of simple
keys, in bytes, decide what the text means, and messages name places by line and column.
-/

set_option autoImplicit false

namespace TypedVars.Yaml

/-- The characters that may stand in YAML text at all. -/
def isAdmitted (c : Char) : Bool :=
  let n := c.toNat
  n == 0x09 || n == 0x0A || n == 0x0D || (0x20 ≤ n && n ≤ 0x7E) || n == 0x85 ||
    (0xA0 ≤ n && n ≤ 0xFFFD) || 0x10000 ≤ n

/-- A space or a tab. -/
def isSpace (c : Char) : Bool := c == ' ' || c == '\t'

/-- A line break. -/
def isBreak (c : Char) : Bool :=
  c == '\n' || c == '\r' || c == '\u0085' || c == '\u2028' || c == '\u2029'

/-- The characters of the names of anchors, tags and directives. -/
def isNameChar (c : Char) : Bool := c.isAlphanum || c == '_' || c == '-'

/-- The text is at its end, at a space or at a line break. -/
def atGap : Text → Bool
  | [] => true
  | c :: _ => isSpace c || isBreak c

/-- The text is at its end or at a line break. -/
def atLineEnd : Text → Bool
  | [] => true
  | c :: _ => isBreak c

/-- The text goes on with a given character. -/
def atChar (c : Char) : Text → Bool
  | [] => false
  | d :: _ => d == c

/-- What the line break at the front of a text stands for: a line feed, except that the separators
of lines and paragraphs stand for themselves. -/
def breakText : Text → Text
  | [] => []
  | c :: _ => if c == '\u2028' || c == '\u2029' then [c] else if isBreak c then ['\n'] else []

/-- The line and the column of a place, counted from zero. -/
structure Position where
  /-- The number of line breaks in front of the place. -/
  line : Nat
  /-- The number of characters between the last of them and the place. -/
  column : Nat
deriving DecidableEq, Repr

/-- The start of a text. -/
def Position.start : Position := ⟨0, 0⟩

/-- A place in a text, and what is read from there. -/
structure Cursor where
  /-- The text from here on. -/
  rest : Text
  /-- The number of bytes read. -/
  index : Nat
  /-- The number of line breaks read. -/
  line : Nat
  /-- The number of characters read since the last line break. -/
  column : Nat
deriving DecidableEq, Repr

namespace Cursor

/-- The start of a text. -/
def start (text : Text) : Cursor := ⟨text, 0, 0, 0⟩

/-- The line and the column of a cursor. -/
def position (cursor : Cursor) : Position := ⟨cursor.line, cursor.column⟩

/-- Moves over characters of the current line. -/
def move (cursor : Cursor) (count : Nat) : Cursor :=
  ⟨cursor.rest.drop count, cursor.index + Text.encodedLength (cursor.rest.take count), cursor.line,
    cursor.column + count⟩

/-- Moves over a line break; a carriage return takes a line feed behind it along. -/
def nextLine (cursor : Cursor) : Cursor :=
  match cursor.rest with
  | [] => cursor
  | '\r' :: '\n' :: rest => ⟨rest, cursor.index + 2, cursor.line + 1, 0⟩
  | c :: rest => ⟨rest, cursor.index + c.utf8Size, cursor.line + 1, 0⟩

/-- Ends a line that has characters without moving on in the text. -/
def endLine (cursor : Cursor) : Cursor :=
  if cursor.column = 0 then cursor else { cursor with line := cursor.line + 1, column := 0 }

/-- Moves over the characters up to a line break. -/
def skipComment (cursor : Cursor) : Cursor :=
  cursor.move (cursor.rest.takeWhile fun c => !isBreak c).length

/-- Moves over spaces and tabs. -/
def skipSpaces (cursor : Cursor) : Cursor := cursor.move (cursor.rest.takeWhile isSpace).length

/-- The place is the first of a line and holds the mark of a document's start or end. -/
def atDocumentMark (cursor : Cursor) : Bool :=
  cursor.column == 0 &&
    (['-', '-', '-'].isPrefixOf cursor.rest || ['.', '.', '.'].isPrefixOf cursor.rest) &&
    atGap (cursor.rest.drop 3)

/-- A move over some character shortens the text. -/
theorem move_shortens {cursor : Cursor} {count : Nat} (h : cursor.rest ≠ []) (pos : 0 < count) :
    (cursor.move count).rest.length < cursor.rest.length := by
  have := List.length_pos_iff.2 h
  simp only [move, List.length_drop]
  omega

/-- A line break shortens the text. -/
theorem nextLine_shortens {cursor : Cursor} (h : cursor.rest ≠ []) :
    cursor.nextLine.rest.length < cursor.rest.length := by
  unfold nextLine
  split
  · contradiction
  · next rest heq => rw [heq]; simp only [List.length_cons]; omega
  · next rest _ heq => rw [heq]; simp only [List.length_cons]; omega

end Cursor

end TypedVars.Yaml
