import TypedVars.Condition.Expression

/-!
# Truth of expressions

An expression has a truth value when its connectives stand between truth values and its comparisons
between literals of one kind. Both sides of a connective are always evaluated, so a fault on the
right is found even where the left side decides the value.
-/

set_option autoImplicit false

namespace TypedVars.Condition

/-- Why an expression has no truth value. -/
inductive Fault where
  /-- A literal that is no truth value stands where one is needed. -/
  | nonBoolean (found : Literal)
  /-- A side of a comparison is itself compound. -/
  | compoundOperand (operand : Expression)
  /-- The sides of a comparison are of different kinds. -/
  | mismatch (left right : Literal)
  /-- A symbol writes no operator. -/
  | unknownOperator (symbol : Text)
deriving DecidableEq, Repr

/-- The wording of a fault. -/
def Fault.message : Fault → Text
  | .nonBoolean found => "Expected a boolean condition, found ".toList ++ found.described
  | .compoundOperand operand => "Comparison operand is not a literal: ".toList ++ operand.text
  | .mismatch left right =>
    "Mismatched types in comparison: ".toList ++ left.described ++ " vs ".toList ++ right.described
  | .unknownOperator symbol => "Unknown operator: ".toList ++ symbol

/-- The wording of a fault where it has to be told what it is a fault of. -/
def Fault.report (fault : Fault) : Text := "Condition error: ".toList ++ fault.message

/-- Compares two literals, which must be of one kind. -/
def Literal.compare (left right : Literal) : Except Fault Ordering :=
  match Literal.compare? left right with
  | some order => .ok order
  | none => .error (.mismatch left right)

namespace Expression

/-- The literal that an operand of a comparison has to be. -/
def operand : Expression → Except Fault Literal
  | .literal value => .ok value
  | compound => .error (.compoundOperand compound)

/-- The truth value of an expression. -/
def evaluate : Expression → Except Fault Bool
  | .literal (.boolean value) => .ok value
  | .literal other => .error (.nonBoolean other)
  | .binary left (.connective which) right => do
    let leftValue ← evaluate left
    let rightValue ← evaluate right
    return which.apply leftValue rightValue
  | .binary left (.comparison which) right => do
    let leftLiteral ← left.operand
    let rightLiteral ← right.operand
    let order ← leftLiteral.compare rightLiteral
    return which.holds order

end Expression

end TypedVars.Condition
