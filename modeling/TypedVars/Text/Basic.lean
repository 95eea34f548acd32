/-!
# Text

Values of variables, names and expressions are text: sequences of Unicode scalar values. Text is
kept as a list of characters, so that a rule about characters is a recursion on the data and a law
about it is an induction.
-/

set_option autoImplicit false

namespace TypedVars

/-- Text is a list of characters. -/
abbrev Text := List Char

namespace Text

/-- A pattern occurs in a text when the text continues with the pattern at some position. -/
def occursIn (pattern : Text) : Text → Bool
  | [] => pattern.isEmpty
  | c :: rest => pattern.isPrefixOf (c :: rest) || occursIn pattern rest

/-- Replaces the occurrences of a non-empty pattern, read from left to right without overlap. -/
def replaceAll (pattern replacement : Text) : Text → Text
  | [] => []
  | c :: rest =>
    if pattern.isPrefixOf (c :: rest) then
      replacement ++ replaceAll pattern replacement (rest.drop (pattern.length - 1))
    else
      c :: replaceAll pattern replacement rest
termination_by text => text.length
decreasing_by all_goals simp only [List.length_cons, List.length_drop]; omega

/-- Joins texts with a separator between neighbours. -/
def joinWith (separator : Text) : List Text → Text
  | [] => []
  | [last] => last
  | first :: rest => first ++ separator ++ joinWith separator rest

/-- The number of bytes of a text in UTF-8. -/
def encodedLength : Text → Nat
  | [] => 0
  | c :: rest => c.utf8Size + encodedLength rest

/-- Occurrence is the infix relation on lists. -/
theorem occursIn_iff (pattern text : Text) : occursIn pattern text = true ↔ pattern <:+: text := by
  induction text with
  | nil => simp [occursIn]
  | cons c rest ih =>
    rw [occursIn, Bool.or_eq_true, ih, List.isPrefixOf_iff_prefix, List.infix_cons_iff]

end Text

end TypedVars
