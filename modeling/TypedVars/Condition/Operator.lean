import TypedVars.Text.Basic

/-!
# Operators of conditions

A condition joins literals by connectives and comparisons. An operator is written by one symbol, and
the symbols are listed with the longer ones first, so that `>=` is not taken for `>`.
-/

set_option autoImplicit false

namespace TypedVars.Condition

/-- A connective of truth values. -/
inductive Connective where
  /-- Both sides hold. -/
  | and
  /-- One of the sides holds. -/
  | or
deriving DecidableEq, Repr

/-- A comparison of literals. -/
inductive Comparison where
  /-- The sides are equal. -/
  | equal
  /-- The sides differ. -/
  | notEqual
  /-- The left side is greater. -/
  | greater
  /-- The left side is less. -/
  | less
  /-- The left side is greater or equal. -/
  | greaterEqual
  /-- The left side is less or equal. -/
  | lessEqual
deriving DecidableEq, Repr

/-- An operator is a connective or a comparison. -/
inductive Operator where
  /-- An operator between truth values. -/
  | connective (which : Connective)
  /-- An operator between literals of one kind. -/
  | comparison (which : Comparison)
deriving DecidableEq, Repr

/-- The truth value of two joined truth values. -/
def Connective.apply : Connective → Bool → Bool → Bool
  | .and, left, right => left && right
  | .or, left, right => left || right

/-- Tells whether a comparison holds of sides in a given order. -/
def Comparison.holds : Comparison → Ordering → Bool
  | .equal, order => order == .eq
  | .notEqual, order => order != .eq
  | .greater, order => order == .gt
  | .less, order => order == .lt
  | .greaterEqual, order => order != .lt
  | .lessEqual, order => order != .gt

namespace Operator

/-- The written form of an operator. -/
def symbol : Operator → Text
  | .connective .and => ['&', '&']
  | .connective .or => ['|', '|']
  | .comparison .equal => ['=', '=']
  | .comparison .notEqual => ['!', '=']
  | .comparison .greaterEqual => ['>', '=']
  | .comparison .lessEqual => ['<', '=']
  | .comparison .greater => ['>']
  | .comparison .less => ['<']

/-- Every operator, in the order in which their symbols are looked for. -/
def all : List Operator :=
  [.connective .and, .connective .or, .comparison .equal, .comparison .notEqual,
    .comparison .greaterEqual, .comparison .lessEqual, .comparison .greater, .comparison .less]

/-- The symbols in the order in which they are looked for. -/
def symbols : List Text := all.map symbol

/-- The operator that a symbol writes. -/
def ofSymbol? (text : Text) : Option Operator := all.find? fun operator => operator.symbol == text

/-- Every operator is listed. -/
theorem mem_all (operator : Operator) : operator ∈ all := by
  rcases operator with which | which <;> cases which <;> decide

/-- A written operator is read back. -/
theorem ofSymbol?_symbol (operator : Operator) : ofSymbol? operator.symbol = some operator := by
  rcases operator with which | which <;> cases which <;> rfl

/-- Only the symbol of an operator is read as that operator. -/
theorem eq_symbol_of_ofSymbol? {text : Text} {operator : Operator}
    (h : ofSymbol? text = some operator) : text = operator.symbol := by
  have := List.find?_some h
  exact (beq_iff_eq.1 this).symm

end Operator

end TypedVars.Condition
