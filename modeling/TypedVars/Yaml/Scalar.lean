import TypedVars.Number.Hexadecimal
import TypedVars.Yaml.Cursor

/-!
# Text of scalars

A scalar may be spread over lines. Between its words stands a gap; a gap within a line is kept, a
single line break folds into a space, and of more breaks the first is dropped. Plain scalars end at
an indicator, quoted ones at their quotation mark.
-/

set_option autoImplicit false

namespace TypedVars.Yaml

/-- What stands between two words of a scalar. -/
structure Gap where
  /-- The spaces and tabs before the first line break. -/
  spaces : Text
  /-- Whether there is a line break. -/
  broken : Bool
  /-- What the first line break stands for. -/
  firstBreak : Text
  /-- What the later line breaks stand for. -/
  laterBreaks : Text
deriving DecidableEq, Repr

namespace Gap

/-- The gap between neighbours. -/
def none : Gap := ⟨[], false, [], []⟩

/-- The gap at a line break that an escape takes out of the text. -/
def escapedBreak : Gap := ⟨[], true, [], []⟩

/-- There is nothing in the gap. -/
def isNone (gap : Gap) : Bool := gap.spaces.isEmpty && !gap.broken

/-- Adds a space or a tab; after a line break it is indentation and is dropped. -/
def addSpace (gap : Gap) (c : Char) : Gap :=
  if gap.broken then gap else { gap with spaces := gap.spaces ++ [c] }

/-- Adds a line break. -/
def addBreak (gap : Gap) (breaks : Text) : Gap :=
  if gap.broken then { gap with laterBreaks := gap.laterBreaks ++ breaks }
  else ⟨[], true, breaks, []⟩

/-- The text that a gap stands for between two words. -/
def folded (gap : Gap) : Text :=
  if !gap.broken then gap.spaces
  else if gap.firstBreak = ['\n'] then
    if gap.laterBreaks.isEmpty then [' '] else gap.laterBreaks
  else gap.firstBreak ++ gap.laterBreaks

end Gap

/-- The characters that delimit flow collections. -/
def isFlowIndicator (c : Char) : Bool :=
  c == ',' || c == '[' || c == ']' || c == '\x7b' || c == '\x7d'

/-- A colon in front of one of these characters is refused in a plain scalar of a flow
collection. -/
def colonForbidden : Text → Bool
  | [] => false
  | c :: _ => c == '?' || isFlowIndicator c

/-- The scalar that a run of plain characters has become, and where it ends. -/
structure PlainEnd where
  /-- The text. -/
  text : Text
  /-- Whether a line break follows it. -/
  broken : Bool
  /-- The place after it and after the gap that follows. -/
  cursor : Cursor
deriving DecidableEq, Repr

/-- Reads on in a plain scalar after its characters so far, last first, and a gap. In block context
the scalar ends where the indentation falls below `floor`; a tab in the indentation is refused
there. -/
def plainFrom (inFlow : Bool) (floor : Nat) (reversed : Text) (gap : Gap) (cursor : Cursor) :
    Option PlainEnd :=
  match _shape : cursor.rest with
  | [] => some ⟨reversed.reverse, gap.broken, cursor⟩
  | c :: rest =>
    if isSpace c then
      if gap.broken && c == '\t' && cursor.column < floor then none
      else plainFrom inFlow floor reversed (gap.addSpace c) (cursor.move 1)
    else if isBreak c then
      plainFrom inFlow floor reversed (gap.addBreak (breakText cursor.rest)) cursor.nextLine
    else if !gap.isNone && (c == '#' || cursor.atDocumentMark ||
        (!inFlow && cursor.column < floor)) then
      some ⟨reversed.reverse, gap.broken, cursor⟩
    else if inFlow && c == ':' && colonForbidden rest then none
    else if (c == ':' && atGap rest) || (inFlow && isFlowIndicator c) then
      some ⟨reversed.reverse, gap.broken, cursor⟩
    else plainFrom inFlow floor (c :: (gap.folded.reverse ++ reversed)) Gap.none (cursor.move 1)
termination_by cursor.rest.length
decreasing_by
  all_goals
    first
    | exact Cursor.move_shortens (by simp [_shape]) (by decide)
    | exact Cursor.nextLine_shortens (by simp [_shape])

/-- The character that a number of hexadecimal digits at the front of a text denotes. -/
def hexEscape? (count : Nat) (text : Text) : Option Char :=
  if text.length < count then none
  else
    (Hexadecimal.toNat? (text.take count)).bind fun n =>
      if n.isValidChar then some (Char.ofNat n) else none

/-- The character of an escape in double quotes, whose text starts behind the backslash, and the
number of characters of that text it takes. -/
def escape? : Text → Option (Char × Nat)
  | [] => none
  | c :: rest =>
    match c with
    | '0' => some ('\x00', 1)
    | 'a' => some ('\x07', 1)
    | 'b' => some ('\x08', 1)
    | 't' => some ('\t', 1)
    | '\t' => some ('\t', 1)
    | 'n' => some ('\n', 1)
    | 'v' => some ('\x0b', 1)
    | 'f' => some ('\x0c', 1)
    | 'r' => some ('\r', 1)
    | 'e' => some ('\x1b', 1)
    | ' ' => some (' ', 1)
    | '"' => some ('"', 1)
    | '/' => some ('/', 1)
    | '\\' => some ('\\', 1)
    | 'N' => some ('\u0085', 1)
    | '_' => some ('\u00a0', 1)
    | 'L' => some ('\u2028', 1)
    | 'P' => some ('\u2029', 1)
    | 'x' => (hexEscape? 2 rest).map fun decoded => (decoded, 3)
    | 'u' => (hexEscape? 4 rest).map fun decoded => (decoded, 5)
    | 'U' => (hexEscape? 8 rest).map fun decoded => (decoded, 9)
    | _ => none

/-- Reads on in a double-quoted scalar after its characters so far, last first, and a gap. -/
def doubleQuotedFrom (reversed : Text) (gap : Gap) (cursor : Cursor) : Option (Text × Cursor) :=
  match _shape : cursor.rest with
  | [] => none
  | c :: rest =>
    if isSpace c then doubleQuotedFrom reversed (gap.addSpace c) (cursor.move 1)
    else if isBreak c then
      doubleQuotedFrom reversed (gap.addBreak (breakText cursor.rest)) cursor.nextLine
    else if cursor.atDocumentMark then none
    else if c == '"' then some ((gap.folded.reverse ++ reversed).reverse, cursor.move 1)
    else if c == '\\' then
      if _continued : rest ≠ [] ∧ atLineEnd rest then
        doubleQuotedFrom (gap.folded.reverse ++ reversed) Gap.escapedBreak (cursor.move 1).nextLine
      else
        match escape? rest with
        | some (decoded, count) =>
          doubleQuotedFrom (decoded :: (gap.folded.reverse ++ reversed)) Gap.none
            (cursor.move (count + 1))
        | none => none
    else doubleQuotedFrom (c :: (gap.folded.reverse ++ reversed)) Gap.none (cursor.move 1)
termination_by cursor.rest.length
decreasing_by
  · exact Cursor.move_shortens (by simp [_shape]) (by decide)
  · exact Cursor.nextLine_shortens (by simp [_shape])
  · refine Nat.lt_trans (Cursor.nextLine_shortens ?_)
      (Cursor.move_shortens (by simp [_shape]) (by decide))
    simp [Cursor.move, _shape, _continued.1]
  · exact Cursor.move_shortens (by simp [_shape]) (Nat.succ_pos _)
  · exact Cursor.move_shortens (by simp [_shape]) (by decide)

/-- Reads on in a single-quoted scalar after its characters so far, last first, and a gap. Two
quotation marks stand for one. -/
def singleQuotedFrom (reversed : Text) (gap : Gap) (cursor : Cursor) : Option (Text × Cursor) :=
  match _shape : cursor.rest with
  | [] => none
  | c :: rest =>
    if isSpace c then singleQuotedFrom reversed (gap.addSpace c) (cursor.move 1)
    else if isBreak c then
      singleQuotedFrom reversed (gap.addBreak (breakText cursor.rest)) cursor.nextLine
    else if cursor.atDocumentMark then none
    else if c == '\'' then
      if atChar '\'' rest then
        singleQuotedFrom ('\'' :: (gap.folded.reverse ++ reversed)) Gap.none (cursor.move 2)
      else some ((gap.folded.reverse ++ reversed).reverse, cursor.move 1)
    else singleQuotedFrom (c :: (gap.folded.reverse ++ reversed)) Gap.none (cursor.move 1)
termination_by cursor.rest.length
decreasing_by
  all_goals
    first
    | exact Cursor.move_shortens (by simp [_shape]) (by decide)
    | exact Cursor.nextLine_shortens (by simp [_shape])

end TypedVars.Yaml
