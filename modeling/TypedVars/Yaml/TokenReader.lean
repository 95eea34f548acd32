import TypedVars.Yaml.BlockScalar
import TypedVars.Yaml.TokenLog

/-!
# The tokens of a text

Tokens are read one after the other. Indentation opens and closes block collections. A key needs no
mark of its own: where a node could be a simple key, its place is noted as a candidate, and a colon
behind it puts the mark in. A candidate ends with its line and reaches over at most 1024 bytes.

Text that is not well formed has no tokens.
-/

set_option autoImplicit false

namespace TypedVars.Yaml

/-- A place where a simple key may start. -/
structure Candidate where
  /-- Only a key can stand here. -/
  required : Bool
  /-- The number of tokens in front of the place. -/
  token : Nat
  /-- The number of bytes in front of the place. -/
  index : Nat
  /-- The line and the column of the place. -/
  position : Position
deriving DecidableEq, Repr

/-- How far the reading of tokens has come. -/
structure TokenReader where
  /-- The place in the text. -/
  cursor : Cursor
  /-- The tokens so far. -/
  tokens : TokenLog
  /-- The columns of the open block collections, innermost first. -/
  indents : List Nat
  /-- Whether a simple key may start at the place. -/
  keyAllowed : Bool
  /-- The candidate of the innermost collection. -/
  candidate : Option Candidate
  /-- The candidates around the open flow collections, innermost first. -/
  outer : List (Option Candidate)
deriving DecidableEq, Repr

namespace TokenReader

/-- The reader at the start of a text. -/
def start (text : Text) : TokenReader := ⟨.start text, .empty, [], true, none, []⟩

/-- Some flow collection is open. -/
def inFlow (reader : TokenReader) : Bool := !reader.outer.isEmpty

/-- The least column of what belongs to the innermost block collection. -/
def floor (reader : TokenReader) : Nat :=
  match reader.indents with
  | [] => 0
  | indent :: _ => indent + 1

/-- Adds a token that starts at the place and moves to another one. -/
def emit (reader : TokenReader) (token : Token) (cursor : Cursor) : TokenReader :=
  { reader with tokens := reader.tokens.push ⟨token, reader.cursor.position⟩, cursor := cursor }

/-- Puts a token in behind a number of others. -/
def insert (reader : TokenReader) (place : Nat) (added : Placed) : TokenReader :=
  { reader with tokens := reader.tokens.insert place added }

/-- Gives the innermost candidate up, unless it is required. -/
def dropCandidate (reader : TokenReader) : Option TokenReader :=
  match reader.candidate with
  | some candidate => if candidate.required then none else some { reader with candidate := none }
  | none => some reader

/-- Notes the place as a candidate if a simple key may start there. In block context a place at the
column of the open collection can hold nothing but a key. -/
def noteCandidate (reader : TokenReader) : Option TokenReader :=
  if reader.keyAllowed then
    reader.dropCandidate.map fun free =>
      let required := !reader.inFlow && reader.indents.head? == some reader.cursor.column
      { free with
        candidate := some ⟨required, reader.tokens.size, reader.cursor.index,
          reader.cursor.position⟩ }
  else some reader

/-- A candidate is out of reach of a place. -/
def isStale (cursor : Cursor) (candidate : Candidate) : Bool :=
  candidate.position.line < cursor.line || candidate.index + 1024 < cursor.index

/-- Gives a candidate up that is out of reach; a required one must not be. -/
def refresh (cursor : Cursor) : Option Candidate → Option (Option Candidate)
  | none => some none
  | some candidate =>
    if isStale cursor candidate then (if candidate.required then none else some none)
    else some (some candidate)

/-- Gives every candidate up that is out of reach. -/
def dropStale (reader : TokenReader) : Option TokenReader := do
  let candidate ← refresh reader.cursor reader.candidate
  let outer ← reader.outer.mapM (refresh reader.cursor)
  return { reader with candidate := candidate, outer := outer }

/-- Opens a block collection when its column is deeper than the open ones, with its token behind a
number of others. -/
def openBlock (reader : TokenReader) (position : Position) (place : Nat) (added : Token) :
    TokenReader :=
  if reader.inFlow || position.column < reader.floor then reader
  else { reader.insert place ⟨added, position⟩ with indents := position.column :: reader.indents }

/-- Closes the block collections that are deeper than a column, or all of them. -/
def closeBlocks (reader : TokenReader) (column : Option Nat) : TokenReader :=
  if reader.inFlow then reader
  else
    let deeper := reader.indents.takeWhile fun indent => column.all (· < indent)
    { reader with
      indents := reader.indents.drop deeper.length
      tokens := reader.tokens.pushMany deeper.length ⟨.blockEnd, reader.cursor.position⟩ }

/-- Moves over spaces, comments and line breaks to the next token. Tabs count as spaces where no
simple key may start, and a line may open with a byte order mark, which takes a column. A line break
in block context allows simple keys again. -/
def skipToToken (inFlow keyAllowed : Bool) (cursor : Cursor) : Bool × Cursor :=
  match _shape : cursor.rest with
  | [] => (keyAllowed, cursor)
  | c :: rest =>
    if c == ' ' || (c == '\t' && (inFlow || !keyAllowed)) then
      skipToToken inFlow keyAllowed (cursor.move 1)
    else if c == '\uFEFF' && cursor.column == 0 then skipToToken inFlow keyAllowed (cursor.move 1)
    else if isBreak c then skipToToken inFlow (keyAllowed || !inFlow) cursor.nextLine
    else if c == '#' then
      skipToToken inFlow keyAllowed
        (cursor.move (1 + (rest.takeWhile fun d => !isBreak d).length))
    else (keyAllowed, cursor)
termination_by cursor.rest.length
decreasing_by
  · exact Cursor.move_shortens (by simp [_shape]) (by decide)
  · exact Cursor.move_shortens (by simp [_shape]) (by decide)
  · exact Cursor.nextLine_shortens (by simp [_shape])
  · exact Cursor.move_shortens (by simp [_shape]) (by omega)

/-- Ends every block collection and gives the candidate up, as at the borders of documents. -/
def endBlocks (reader : TokenReader) : Option TokenReader :=
  (reader.closeBlocks none).dropCandidate.map fun closed => { closed with keyAllowed := false }

/-- Reads the end of the text, which ends its last line. -/
def readEnd (reader : TokenReader) : Option TokenReader :=
  reader.endBlocks.map fun closed => closed.emit .streamEnd closed.cursor.endLine

/-- Reads a directive. -/
def readDirective (reader : TokenReader) : Option TokenReader := do
  let closed ← reader.endBlocks
  let (token, ended) ← directive? (closed.cursor.move 1)
  return closed.emit token ended

/-- Reads the mark of a document's start or end. -/
def readDocumentMark (reader : TokenReader) (token : Token) : Option TokenReader :=
  reader.endBlocks.map fun closed => closed.emit token (closed.cursor.move 3)

/-- Reads the start of a flow collection, which may itself be a simple key. -/
def readFlowStart (reader : TokenReader) (token : Token) : Option TokenReader :=
  reader.noteCandidate.map fun noted =>
    { noted.emit token (noted.cursor.move 1) with
      outer := noted.candidate :: noted.outer, candidate := none, keyAllowed := true }

/-- Reads the end of a flow collection. -/
def readFlowEnd (reader : TokenReader) (token : Token) : Option TokenReader :=
  reader.dropCandidate.map fun free =>
    { free.emit token (free.cursor.move 1) with
      candidate := free.outer.head?.join, outer := free.outer.tail, keyAllowed := false }

/-- Reads a comma. -/
def readFlowEntry (reader : TokenReader) : Option TokenReader :=
  reader.dropCandidate.map fun free =>
    { free.emit .flowEntry (free.cursor.move 1) with keyAllowed := true }

/-- Opens a block collection at the place for an indicator that stands in front of its entries. -/
def openAtIndicator (reader : TokenReader) (added : Token) : Option TokenReader :=
  if reader.inFlow then some reader
  else if reader.keyAllowed then
    some (reader.openBlock reader.cursor.position reader.tokens.size added)
  else none

/-- Reads a hyphen in front of an entry. -/
def readBlockEntry (reader : TokenReader) : Option TokenReader := do
  let opened ← reader.openAtIndicator .blockSequenceStart
  let free ← opened.dropCandidate
  return { free.emit .blockEntry (free.cursor.move 1) with keyAllowed := true }

/-- Reads a question mark in front of a key. -/
def readKey (reader : TokenReader) : Option TokenReader := do
  let opened ← reader.openAtIndicator .blockMappingStart
  let free ← opened.dropCandidate
  return { free.emit .key (free.cursor.move 1) with keyAllowed := !reader.inFlow }

/-- Reads a colon in front of a value. A candidate becomes a key, and opens a mapping at its own
place. -/
def readValue (reader : TokenReader) : Option TokenReader :=
  match reader.candidate with
  | some candidate =>
    let keyed := (reader.insert candidate.token ⟨.key, candidate.position⟩).openBlock
      candidate.position candidate.token .blockMappingStart
    some { keyed.emit .value (keyed.cursor.move 1) with candidate := none, keyAllowed := false }
  | none =>
    (reader.openAtIndicator .blockMappingStart).map fun opened =>
      { opened.emit .value (opened.cursor.move 1) with keyAllowed := !reader.inFlow }

/-- Reads a token that may itself start a simple key, by a function on the place. -/
def readNode (reader : TokenReader) (read? : Cursor → Option (Token × Cursor)) :
    Option TokenReader := do
  let noted ← reader.noteCandidate
  let (token, ended) ← read? noted.cursor
  return { noted.emit token ended with keyAllowed := false }

/-- Reads a block scalar. -/
def readBlockScalar (reader : TokenReader) (folded : Bool) : Option TokenReader := do
  let free ← reader.dropCandidate
  let (text, ended) ← blockScalar? folded free.floor (free.cursor.move 1)
  return { free.emit (.scalar text false) ended with keyAllowed := true }

/-- Reads a plain scalar. A line break behind it allows simple keys again. -/
def readPlain (reader : TokenReader) : Option TokenReader := do
  let noted ← reader.noteCandidate
  let plain ← plainFrom noted.inFlow noted.floor [] Gap.none noted.cursor
  return { noted.emit (.scalar plain.text true) plain.cursor with keyAllowed := plain.broken }

/-- Characters that start no plain scalar. -/
def isIndicator (c : Char) : Bool :=
  ['-', '?', ':', ',', '[', ']', '\x7b', '\x7d', '#', '&', '*', '!', '|', '>', '\'', '"', '%', '@',
    '\x60'].contains c

/-- A character starts a plain scalar if it is no indicator, or one that is not followed by a gap
where it would need one. -/
def opensPlain (inFlow : Bool) (c : Char) (rest : Text) : Bool :=
  (!isIndicator c && !isSpace c) || (c == '-' && !(rest.head?.any isSpace)) ||
    (!inFlow && (c == '?' || c == ':') && !atGap rest)

/-- Reads the token at the place. -/
def readToken (reader : TokenReader) : Option TokenReader :=
  match reader.cursor.rest with
  | [] => reader.readEnd
  | c :: rest =>
    if reader.cursor.column == 0 && c == '%' then reader.readDirective
    else if reader.cursor.atDocumentMark then
      reader.readDocumentMark (if c == '-' then .documentStart else .documentEnd)
    else if c == '[' then reader.readFlowStart .flowSequenceStart
    else if c == '\x7b' then reader.readFlowStart .flowMappingStart
    else if c == ']' then reader.readFlowEnd .flowSequenceEnd
    else if c == '\x7d' then reader.readFlowEnd .flowMappingEnd
    else if c == ',' then reader.readFlowEntry
    else if c == '-' && atGap rest then reader.readBlockEntry
    else if c == '?' && (reader.inFlow || atGap rest) then reader.readKey
    else if c == ':' && (reader.inFlow || atGap rest) then reader.readValue
    else if c == '*' then
      reader.readNode fun cursor =>
        (anchorName? (cursor.move 1)).map fun (name, ended) => (.alias name, ended)
    else if c == '&' then
      reader.readNode fun cursor =>
        (anchorName? (cursor.move 1)).map fun (name, ended) => (.anchor name, ended)
    else if c == '!' then
      reader.readNode (tag? reader.inFlow)
    else if c == '|' && !reader.inFlow then reader.readBlockScalar false
    else if c == '>' && !reader.inFlow then reader.readBlockScalar true
    else if c == '\'' then
      reader.readNode fun cursor =>
        (singleQuotedFrom [] Gap.none (cursor.move 1)).map fun (text, ended) =>
          (.scalar text false, ended)
    else if c == '"' then
      reader.readNode fun cursor =>
        (doubleQuotedFrom [] Gap.none (cursor.move 1)).map fun (text, ended) =>
          (.scalar text false, ended)
    else if opensPlain reader.inFlow c rest then reader.readPlain
    else none

/-- Reads the next token, after the space in front of it. -/
def next (reader : TokenReader) : Option TokenReader := do
  let (keyAllowed, cursor) := skipToToken reader.inFlow reader.keyAllowed reader.cursor
  let moved ← dropStale { reader with keyAllowed := keyAllowed, cursor := cursor }
  (moved.closeBlocks (some cursor.column)).readToken

/-- Reads on to the end of the text, at most as many tokens as the fuel. -/
def readAll (reader : TokenReader) : Nat → Option (List Placed)
  | 0 => none
  | fuel + 1 => do
    let read ← reader.next
    if read.tokens.last? = some .streamEnd then return read.tokens.toList else readAll read fuel

end TokenReader

/-- The tokens of a text with their places, if it is well formed. Every token but the last takes a
character, so there are at most as many as characters and one more. -/
def Token.ofText? (text : Text) : Option (List Placed) :=
  if text.all isAdmitted then (TokenReader.start text).readAll (text.length + 1) else none

end TypedVars.Yaml
