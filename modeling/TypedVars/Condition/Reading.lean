import TypedVars.Condition.Evaluation
import TypedVars.Text.Piece

/-!
# Conditions in text

A condition is read from a text by its words, divided at the symbols of the operators. Every text is
some condition; what follows the first condition in it is dropped.
-/

set_option autoImplicit false

namespace TypedVars.Condition

/-- The words of a text, divided at the symbols of conditions. -/
def tokens (text : Text) : List Text := Text.splitOperators Operator.symbols (Text.words text)

/-- The condition that a text writes. -/
def parse (text : Text) : Expression := (Expression.ofTokens (tokens text)).1

/-- The truth value of the condition that a text writes. -/
def evaluate (text : Text) : Except Fault Bool := (parse text).evaluate

/-- A text bears a condition operator when one of the symbols occurs in it. -/
def bearsOperator (text : Text) : Bool :=
  Operator.symbols.any fun symbol => Text.occursIn symbol text

end TypedVars.Condition
