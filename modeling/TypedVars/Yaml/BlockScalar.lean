import TypedVars.Yaml.Cursor

/-!
# Block scalars

A block scalar takes the indented lines below its header. A literal one keeps its line breaks; a
folded one joins neighbouring lines that start with no space. The header may fix the indentation and
says what becomes of the line breaks at the end.
-/

set_option autoImplicit false

namespace TypedVars.Yaml

/-- What becomes of the line breaks at the end of a block scalar. -/
inductive Chomping where
  /-- The first one is kept. -/
  | clip
  /-- None is kept. -/
  | strip
  /-- All are kept. -/
  | keep
deriving DecidableEq, Repr

/-- The header of a block scalar, behind its indicator. -/
structure BlockHeader where
  /-- What becomes of the line breaks at the end. -/
  chomping : Chomping
  /-- The indentation over that of the parent, if it is fixed. -/
  increment : Option Nat
deriving DecidableEq, Repr

/-- A sign that tells what becomes of the line breaks at the end. -/
def chompingOf? (c : Char) : Option Chomping :=
  if c == '+' then some .keep else if c == '-' then some .strip else none

/-- A digit that fixes the indentation; zero is refused by the reader of the header. -/
def incrementOf? (c : Char) : Option Nat :=
  if '0' ≤ c ∧ c ≤ '9' then some (c.toNat - 48) else none

/-- Reads the marks of a header, a sign and a digit in either order and each at most once. The
answer counts their characters. -/
def blockMarks? (text : Text) : Option (BlockHeader × Nat) :=
  let first := text.head?
  let second := text.tail.head?
  let marks :=
    match first.bind chompingOf? with
    | some chomping =>
      match second.bind incrementOf? with
      | some increment => (⟨chomping, some increment⟩, 2)
      | none => (⟨chomping, none⟩, 1)
    | none =>
      match first.bind incrementOf? with
      | some increment =>
        match second.bind chompingOf? with
        | some chomping => (⟨chomping, some increment⟩, 2)
        | none => (⟨.clip, some increment⟩, 1)
      | none => (⟨.clip, none⟩, 0)
  if marks.1.increment = some 0 then none else some marks

/-- The place behind the rest of a header line: spaces, a comment and the line break. -/
def headerEnd? (cursor : Cursor) : Option Cursor :=
  let spaced := cursor.skipSpaces
  let ended := if atChar '#' spaced.rest then spaced.skipComment else spaced
  if atLineEnd ended.rest then some ended.nextLine else none

/-- The indentation and the empty lines in front of a line of a block scalar. -/
structure Indentation where
  /-- The greatest column reached. -/
  deepest : Nat
  /-- What the line breaks stand for. -/
  breaks : Text
  /-- The place behind them. -/
  cursor : Cursor
deriving DecidableEq, Repr

/-- Reads indentation and empty lines. Without a known indentation every space counts as
indentation; a tab is refused there. -/
def indentationFrom (known : Option Nat) (deepest : Nat) (breaks : Text) (cursor : Cursor) :
    Option Indentation :=
  let inIndentation := match known with
    | some indent => decide (cursor.column < indent)
    | none => true
  match _shape : cursor.rest with
  | [] => some ⟨max deepest cursor.column, breaks, cursor⟩
  | c :: _ =>
    if inIndentation && c == ' ' then indentationFrom known deepest breaks (cursor.move 1)
    else if inIndentation && c == '\t' then none
    else if isBreak c then
      indentationFrom known (max deepest cursor.column) (breaks ++ breakText cursor.rest)
        cursor.nextLine
    else some ⟨max deepest cursor.column, breaks, cursor⟩
termination_by cursor.rest.length
decreasing_by
  · exact Cursor.move_shortens (by simp [_shape]) (by decide)
  · exact Cursor.nextLine_shortens (by simp [_shape])

/-- The lines of a block scalar read so far. -/
structure BlockLines where
  /-- The text up to the last line break, last character first. -/
  reversed : Text
  /-- What the last line break stands for. -/
  lastBreak : Text
  /-- What the line breaks of the empty lines behind it stand for. -/
  emptyLines : Text
  /-- Whether the last line starts with a space or a tab. -/
  spaced : Bool
  /-- The place of the next line. -/
  cursor : Cursor
deriving DecidableEq, Repr

/-- The text between the last line and the next one. A folded scalar turns a single break between
lines that start with no space into a space, and drops the first of several breaks. -/
def BlockLines.joint (lines : BlockLines) (folded nextSpaced : Bool) : Text :=
  if folded && lines.lastBreak == ['\n'] && !lines.spaced && !nextSpaced then
    if lines.emptyLines.isEmpty then [' '] else lines.emptyLines
  else lines.lastBreak ++ lines.emptyLines

/-- Reads on in a block scalar, at most as many lines as the fuel. -/
def blockLinesFrom (folded : Bool) (indent : Nat) : Nat → BlockLines → Option BlockLines
  | 0, lines => some lines
  | fuel + 1, lines =>
    match lines.cursor.rest with
    | [] => some lines
    | c :: _ =>
      if lines.cursor.column ≠ indent then some lines
      else
        let line := lines.cursor.rest.takeWhile fun d => !isBreak d
        let ended := lines.cursor.move line.length
        (indentationFrom (some indent) 0 [] ended.nextLine).bind fun next =>
          blockLinesFrom folded indent fuel
            ⟨line.reverse ++ ((lines.joint folded (isSpace c)).reverse ++ lines.reversed),
              breakText ended.rest, next.breaks, isSpace c, next.cursor⟩

/-- Reads a block scalar from behind its indicator. The scalar is indented deeper than its parent,
whose indentation is below `floor`. -/
def blockScalar? (folded : Bool) (floor : Nat) (cursor : Cursor) : Option (Text × Cursor) := do
  let (header, count) ← blockMarks? cursor.rest
  let first ← headerEnd? (cursor.move count)
  let known := header.increment.map fun increment => floor - 1 + increment
  let indentation ← indentationFrom known 0 [] first
  let indent := known.getD (max (max indentation.deepest floor) 1)
  let lines ← blockLinesFrom folded indent indentation.cursor.rest.length
    ⟨[], [], indentation.breaks, false, indentation.cursor⟩
  let ending :=
    match header.chomping with
    | .strip => []
    | .clip => lines.lastBreak
    | .keep => lines.lastBreak ++ lines.emptyLines
  return (lines.reversed.reverse ++ ending, lines.cursor)

end TypedVars.Yaml
