import TypedVars.Number.Decimal
import TypedVars.Number.Integer

/-!
# Numerals

A numeral has an optional sign and then digits with an optional point and an optional exponent, at
least one digit beside the point, or one of the words `inf`, `infinity` and `nan` in any case.
-/

set_option autoImplicit false

namespace TypedVars

/-- What a numeral writes, before it is rounded to a format. -/
inductive Numeral where
  /-- The word `nan`. -/
  | nan
  /-- One of the words `inf` and `infinity`. -/
  | infinity (negative : Bool)
  /-- Digits. -/
  | decimal (negative : Bool) (value : Decimal)
deriving DecidableEq, Repr

namespace Numeral

/-- The lower-case form of an ASCII letter; every other character is kept. -/
def lowerCase (c : Char) : Char :=
  if 'A' ≤ c ∧ c ≤ 'Z' then Char.ofNat (c.toNat + 32) else c

/-- The exponent that ends a numeral: nothing, or a mark, an optional sign and digits. -/
def exponentOf? : Text → Option Int
  | [] => some 0
  | mark :: rest => if mark = 'e' ∨ mark = 'E' then Digits.toInt? rest else none

/-- Reads digits with an optional point and exponent. -/
def decimalOf? (text : Text) : Option Decimal :=
  let whole := text.takeWhile Text.isDigit
  let rest := text.dropWhile Text.isDigit
  let (part, rest) :=
    match rest with
    | '.' :: after => (after.takeWhile Text.isDigit, after.dropWhile Text.isDigit)
    | other => ([], other)
  if whole.isEmpty && part.isEmpty then none
  else
    (exponentOf? rest).map fun exponent =>
      ⟨Digits.toNat (whole ++ part), exponent - part.length⟩

/-- Reads a numeral. -/
def ofText? (text : Text) : Option Numeral :=
  let (negative, rest) := Digits.splitSign text
  let word := rest.map lowerCase
  if word = ['i', 'n', 'f'] ∨ word = ['i', 'n', 'f', 'i', 'n', 'i', 't', 'y'] then
    some (.infinity negative)
  else if word = ['n', 'a', 'n'] then some .nan
  else (decimalOf? rest).map (.decimal negative)

/-- The nearest number of a format. -/
def toBinary (F : Format) : Numeral → Binary F
  | .nan => .nan
  | .infinity negative => .infinity negative
  | .decimal negative value => value.toBinary F negative

end Numeral

/-- The number of a format that a numeral writes. -/
def Binary.ofText? (F : Format) (text : Text) : Option (Binary F) :=
  (Numeral.ofText? text).map (Numeral.toBinary F)

end TypedVars
