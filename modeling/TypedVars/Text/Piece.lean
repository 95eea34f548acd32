import TypedVars.Text.Blank

/-!
# Pieces

Operators may be glued to their operands. A token is therefore divided from left to right into
pieces, each either an operator or plain text. A `+` or `-` that opens a number, or that follows the
exponent mark of a number, is a sign and stays inside its plain piece.
-/

set_option autoImplicit false

namespace TypedVars.Text

/-- A part of a token, labelled by what it is. -/
inductive Piece where
  /-- A stretch of text that holds no operator. -/
  | plain (text : Text)
  /-- One of the operators that the division looks for. -/
  | operator (symbol : Text)
deriving DecidableEq, Repr

/-- The characters of a piece. -/
def Piece.text : Piece → Text
  | .plain text => text
  | .operator symbol => symbol

/-- Holds of the decimal digits of ASCII. -/
def isDigit (c : Char) : Bool := '0' ≤ c && c ≤ '9'

/-- A digit or a decimal point: what a number has next to its signs. -/
def isDigitOrPoint (c : Char) : Bool := isDigit c || c == '.'

/-- A text opens a number when its first character is a digit or a point. -/
def opensNumber : Text → Bool
  | [] => false
  | c :: _ => isDigitOrPoint c

/-- A sign may follow a piece, given last character first, that is still empty or that ends in an
exponent mark directly after a digit or a point. -/
def admitsSign : Text → Bool
  | [] => true
  | [_] => false
  | mark :: before :: _ => (mark == 'e' || mark == 'E') && isDigitOrPoint before

/-- A `+` or `-` is a sign between the characters of its piece so far, given last character first,
and the rest of the token. -/
def isSign (symbol reversed after : Text) : Bool :=
  (symbol == ['+'] || symbol == ['-']) && admitsSign reversed && opensNumber after

/-- The first operator of the list with which a text starts. An empty operator stands nowhere. -/
def firstOperator? (operators : List Text) (text : Text) : Option Text :=
  operators.find? fun symbol => !symbol.isEmpty && symbol.isPrefixOf text

/-- The operator at a position of a token. A sign counts as no operator, and then no operator
further down the list is tried. -/
def operatorAt? (operators : List Text) (reversed rest : Text) : Option Text :=
  (firstOperator? operators rest).filter fun symbol =>
    !isSign symbol reversed (rest.drop symbol.length)

/-- Ends a plain piece, given last character first; an empty one is dropped. -/
def closePlain (reversed : Text) (following : List Piece) : List Piece :=
  if reversed.isEmpty then following else .plain reversed.reverse :: following

/-- Divides the rest of a token, after the characters of the open plain piece, last first. -/
def piecesAfter (operators : List Text) (reversed : Text) : Text → List Piece
  | [] => closePlain reversed []
  | c :: rest =>
    match operatorAt? operators reversed (c :: rest) with
    | some symbol =>
      closePlain reversed
        (.operator symbol :: piecesAfter operators [] (rest.drop (symbol.length - 1)))
    | none => piecesAfter operators (c :: reversed) rest
termination_by text => text.length
decreasing_by all_goals simp only [List.length_cons, List.length_drop]; omega

/-- Divides a token into labelled pieces. -/
def pieces (operators : List Text) (token : Text) : List Piece :=
  piecesAfter operators [] token

/-- Divides every token, keeping only the texts of the pieces. -/
def splitOperators (operators : List Text) (tokens : List Text) : List Text :=
  tokens.flatMap fun token => (pieces operators token).map Piece.text

end TypedVars.Text
