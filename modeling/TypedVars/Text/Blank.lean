import TypedVars.Text.Basic

/-!
# Blanks and words

A blank is a character with the Unicode property `White_Space`. Words are the maximal runs of other
characters; blanks only separate them.
-/

set_option autoImplicit false

namespace TypedVars.Text

/-- Holds of the twenty-five characters with the Unicode property `White_Space`. -/
def isBlank (c : Char) : Bool :=
  let n := c.toNat
  (0x09 ≤ n && n ≤ 0x0D) || n == 0x20 || n == 0x85 || n == 0xA0 || n == 0x1680 ||
    (0x2000 ≤ n && n ≤ 0x200A) || n == 0x2028 || n == 0x2029 || n == 0x202F || n == 0x205F ||
    n == 0x3000

/-- A text opens a word when it starts with a character that is no blank. -/
def opensWord : Text → Bool
  | [] => false
  | c :: _ => !isBlank c

/-- Puts a character in front of the first word. -/
def extendFirst (c : Char) : List Text → List Text
  | [] => [[c]]
  | word :: others => (c :: word) :: others

/-- Splits a text into its words, in order and without the blanks. -/
def words : Text → List Text
  | [] => []
  | c :: rest =>
    if isBlank c then words rest
    else if opensWord rest then extendFirst c (words rest)
    else [c] :: words rest

/-- A blank in front changes no word. -/
theorem words_cons_blank {c : Char} (h : isBlank c = true) (rest : Text) :
    words (c :: rest) = words rest := by
  simp [words, h]

end TypedVars.Text
