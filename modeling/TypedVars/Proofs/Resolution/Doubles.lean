import TypedVars.Proofs.Number.RoundTrip
import TypedVars.Proofs.Resolution.Agreement

/-!
# Numbers of sixty-four bits are kept

What a variable of sixty-four bits stores for an arithmetic value is a numeral that is read as this
value again, be it the smallest magnitude, a negative zero or an infinity. So nothing is lost
between a computation and the next one that takes the variable as an operand.
-/

set_option autoImplicit false

namespace TypedVars

namespace TargetType

/-- As a double a text with an arithmetic value resolves to the stored text of that value. -/
theorem resolve_double {raw : Text} {number : Binary64}
    (hvalue : Arithmetic.evaluate? raw = some number) :
    TargetType.double.resolve raw = Layout.stored.text number := by
  apply resolve_of_computed?
  rw [computed?_of_ne_boolean (by decide), hvalue]
  rfl

/-- The value of a text, unless it is no number, is read from what its resolution stores. The signs
of zero are told apart. -/
theorem ofText?_resolve_double {raw : Text} {number : Binary64}
    (hvalue : Arithmetic.evaluate? raw = some number) (hnumber : number ≠ .nan) :
    Binary.ofText? Format.binary64 (TargetType.double.resolve raw) = some number := by
  rw [resolve_double hvalue]
  exact Layout.stored.ofText?_text Format.wide_binary64 hnumber

/-- Half of the second magnitude, with the sign of the dividend. -/
theorem ofText?_resolve_double_least :
    let raw := "-1e-323 / 2".toList
    let least : Binary64 := .finite true ⟨1, by decide⟩
    Arithmetic.evaluate? raw = some least ∧ least ≠ .nan ∧
      Binary.ofText? Format.binary64 (TargetType.double.resolve raw) = some least := by
  intro raw least
  have hvalue : Arithmetic.evaluate? raw = some least := by decide +kernel
  have hleast : least ≠ .nan := by decide
  exact ⟨hvalue, hleast, ofText?_resolve_double hvalue hleast⟩

/-- The first text with a power of ten. -/
example : TargetType.double.resolve "-4e16 / 4".toList = "-1e16".toList := by decide +kernel

end TargetType

end TypedVars
