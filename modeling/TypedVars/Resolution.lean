import TypedVars.Arithmetic
import TypedVars.Condition.Reading
import TypedVars.TargetType

/-!
# Resolution of values

A raw value is resolved for the type of its variable. A text that bears an arithmetic operator is
tried as arithmetic only; otherwise, one that bears a condition operator is tried as a condition,
for truth values only. Whatever has no result that the type stores is kept as it is.
-/

set_option autoImplicit false

namespace TypedVars

/-- The text that a computation puts in the place of a raw value, if it has a result for the
type. -/
def TargetType.computed? (type : TargetType) (raw : Text) : Option Text :=
  if Arithmetic.bearsOperator raw then (Arithmetic.evaluate? raw).bind type.formatNumber
  else if Condition.bearsOperator raw && type == .boolean then
    match Condition.evaluate raw with
    | .ok value => some (Condition.booleanText value)
    | .error _ => none
  else none

/-- The text that a variable of a type stores for a raw value. -/
def TargetType.resolve (type : TargetType) (raw : Text) : Text := (type.computed? raw).getD raw

end TypedVars
