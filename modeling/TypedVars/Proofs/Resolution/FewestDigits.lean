import TypedVars.Proofs.Number.FewestDigits
import TypedVars.TargetType

/-!
# Numbers are stored with the fewest digits

A variable of a floating-point type stores a finite number by a decimal that is read as this number,
and no decimal with fewer digits is. So `0.1` is stored as it is written and not by the digits of
its exact value, at sixty-four bits and at thirty-two.
-/

set_option autoImplicit false

namespace TypedVars

open Decimal (digitCount)

/-- A text spells a number: by a word when it is not finite, and else, behind its sign, by a decimal
that is read as the number, with the fewest digits of all those that are and without a trailing
zero. -/
inductive Spells {F : Format} : Binary F → Text → Prop
  | nan : Spells .nan ['N', 'a', 'N']
  | infinity (negative : Bool) :
      Spells (.infinity negative) ((if negative then ['-'] else []) ++ ['i', 'n', 'f'])
  | finite {negative : Bool} {rank : Fin F.count} {d : Decimal}
      (read : d.toBinary F negative = .finite negative rank)
      (fewest : ∀ other : Decimal, other.toBinary F negative = .finite negative rank →
        digitCount d.coefficient ≤ digitCount other.coefficient)
      (trimmed : d.coefficient = 0 ∨ d.coefficient % 10 ≠ 0) :
      Spells (.finite negative rank)
        ((if negative then ['-'] else []) ++ Layout.stored.decimalText d)

/-- The stored text of a number spells it, in a format that seventeen digits tell apart. -/
theorem spells_text {F : Format} (hwide : F.Wide) (hprecision : 2 * F.binadeSize < 10 ^ 16)
    (number : Binary F) : Spells number (Layout.stored.text number) := by
  cases number with
  | nan => exact .nan
  | infinity negative => exact .infinity negative
  | finite negative rank =>
    obtain ⟨-, hfewest⟩ := F.isLeast_digitCount_shortest hwide hprecision negative rank
    refine .finite (F.toBinary_shortest hwide negative rank) ?_
      (F.coefficient_shortest_mod hwide rank)
    intro other hother
    exact hfewest ⟨other, hother, rfl⟩

/-- Both floating-point types store a text for every number, which spells the number, rounded to the
width of the type. -/
theorem formatNumber_fewest_digits (number : Binary64) :
    (∃ text, TargetType.double.formatNumber number = some text ∧ Spells number text) ∧
      ∃ text, TargetType.float.formatNumber number = some text ∧
        Spells (number.convert Format.binary32) text :=
  ⟨⟨_, rfl, spells_text Format.wide_binary64 (by decide) number⟩,
    ⟨_, rfl, spells_text ⟨by decide, by decide⟩ (by decide) _⟩⟩

/-- A tenth is stored by one digit at either width. -/
example : (Binary.ofText? Format.binary64 "0.1".toList).map
    (fun tenth => (TargetType.double.formatNumber tenth, TargetType.float.formatNumber tenth)) =
      some (some "0.1".toList, some "0.1".toList) := by
  decide +kernel

end TypedVars
