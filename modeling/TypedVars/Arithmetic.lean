import TypedVars.Number.Numeral
import TypedVars.Text.Piece

/-!
# Arithmetic triples

The arithmetic that a value may hold is one operation on two numerals. A text is evaluated when it
divides into exactly three pieces, a numeral, an operator and a numeral; any other text has no
value.
-/

set_option autoImplicit false

namespace TypedVars.Arithmetic

/-- An arithmetic operation. -/
inductive Operation where
  /-- Sum. -/
  | add
  /-- Difference. -/
  | sub
  /-- Product. -/
  | mul
  /-- Quotient. -/
  | div
deriving DecidableEq, Repr

namespace Operation

/-- The symbol of an operation. -/
def symbol : Operation → Text
  | .add => ['+']
  | .sub => ['-']
  | .mul => ['*']
  | .div => ['/']

/-- Every operation, in the order in which the symbols are looked for. -/
def all : List Operation := [.add, .sub, .mul, .div]

/-- The symbols in the order in which they are looked for. -/
def symbols : List Text := all.map symbol

/-- The operation that a symbol writes. -/
def ofSymbol? (text : Text) : Option Operation :=
  all.find? fun operation => operation.symbol == text

/-- The rounded result of an operation. -/
def apply {F : Format} : Operation → Binary F → Binary F → Binary F
  | .add => Binary.add
  | .sub => Binary.sub
  | .mul => Binary.mul
  | .div => Binary.div

/-- A written operation is read back. -/
theorem ofSymbol?_symbol (operation : Operation) : ofSymbol? operation.symbol = some operation := by
  cases operation <;> rfl

end Operation

/-- The words of a text, divided at the symbols of operations. -/
def tokens (text : Text) : List Text := Text.splitOperators Operation.symbols (Text.words text)

/-- A text bears an arithmetic operator when one of the symbols occurs in it, be it as a sign or
inside a word. -/
def bearsOperator (text : Text) : Bool :=
  Operation.symbols.any fun symbol => Text.occursIn symbol text

/-- The value of a text that is a numeral, an operator and a numeral. -/
def evaluate? (text : Text) : Option Binary64 :=
  match tokens text with
  | [left, symbol, right] => do
    let leftValue ← Binary.ofText? Format.binary64 left
    let operation ← Operation.ofSymbol? symbol
    let rightValue ← Binary.ofText? Format.binary64 right
    return operation.apply leftValue rightValue
  | _ => none

end TypedVars.Arithmetic
