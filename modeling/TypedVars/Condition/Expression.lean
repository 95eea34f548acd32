import TypedVars.Condition.Literal
import TypedVars.Condition.Operator

/-!
# Expressions

An expression is a tree of operators over literals. It is written with single spaces and without
brackets, so that its text shows the order of its leaves but not its shape.
-/

set_option autoImplicit false

namespace TypedVars.Condition

/-- A condition as a tree. -/
inductive Expression where
  /-- A constant. -/
  | literal (value : Literal)
  /-- An operator between two expressions. -/
  | binary (left : Expression) (operator : Operator) (right : Expression)
deriving DecidableEq, Repr

namespace Expression

/-- The written form of an expression. -/
def text : Expression → Text
  | .literal value => value.text
  | .binary left operator right => left.text ++ ' ' :: operator.symbol ++ ' ' :: right.text

/-- Reads one condition off a list of tokens and returns what is left. A literal is followed by an
operator and the rest of the condition, or by nothing that belongs to it; a missing literal is
`false`. -/
def ofTokens : List Text → Expression × List Text
  | [] => (.literal (.boolean false), [])
  | [token] => (.literal (.ofToken token), [])
  | token :: next :: after =>
    match Operator.ofSymbol? next with
    | some operator =>
      let (right, remaining) := ofTokens after
      (.binary (.literal (.ofToken token)) operator right, remaining)
    | none => (.literal (.ofToken token), next :: after)

end Expression

end TypedVars.Condition
