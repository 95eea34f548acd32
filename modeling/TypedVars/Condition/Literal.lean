import TypedVars.Number.Integer

/-!
# Literals of conditions

A token that is no operator stands for a truth value, an integer or itself. Literals of one kind are
ordered: truth values with `false` first, integers by value, strings by code points.
-/

set_option autoImplicit false

namespace TypedVars.Condition

/-- A constant in a condition. -/
inductive Literal where
  /-- One of the words `true` and `false`. -/
  | boolean (value : Bool)
  /-- A numeral in the range of sixty-four bits. -/
  | integer (value : Int64)
  /-- Any other token, quotes and brackets included. -/
  | string (value : Text)
deriving DecidableEq, Repr

/-- The written form of a truth value. -/
def booleanText : Bool → Text
  | true => ['t', 'r', 'u', 'e']
  | false => ['f', 'a', 'l', 's', 'e']

namespace Literal

/-- Classifies a token. -/
def ofToken (token : Text) : Literal :=
  if token = booleanText true then .boolean true
  else if token = booleanText false then .boolean false
  else match int64OfText? token with
    | some value => .integer value
    | none => .string token

/-- The written form of a literal. -/
def text : Literal → Text
  | .boolean value => booleanText value
  | .integer value => Digits.ofInt value.toInt
  | .string value => value

/-- The kinds of literals. -/
inductive Kind where
  /-- Truth values. -/
  | boolean
  /-- Integers. -/
  | integer
  /-- Strings. -/
  | string
deriving DecidableEq, Repr

/-- The kind of a literal. -/
def kind : Literal → Kind
  | .boolean _ => .boolean
  | .integer _ => .integer
  | .string _ => .string

/-- The name of a kind in messages. -/
def Kind.name : Kind → Text
  | .boolean => "boolean".toList
  | .integer => "integer".toList
  | .string => "string".toList

/-- Names a literal in a message by its kind and its written form between grave accents. -/
def described (literal : Literal) : Text :=
  literal.kind.name ++ " \x60".toList ++ literal.text ++ "\x60".toList

/-- Compares literals of one kind; there is no order between kinds. -/
def compare? : Literal → Literal → Option Ordering
  | .boolean left, .boolean right => some (compare left right)
  | .integer left, .integer right => some (compare left right)
  | .string left, .string right => some (compare left right)
  | _, _ => none

/-- There is an order between two literals exactly when they have the same kind. -/
theorem compare?_isSome_iff (left right : Literal) :
    (compare? left right).isSome = true ↔ left.kind = right.kind := by
  cases left <;> cases right <;> simp [compare?, kind]

end Literal

end TypedVars.Condition
