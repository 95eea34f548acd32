import TypedVars.Number.Numeral
import TypedVars.Proofs.Number.Integer

/-!
# The grammar of numerals

A numeral is an optional sign and a body. The body is one of three words in any case, or a mantissa
with an optional exponent. A text is read as a number exactly when it has this form, so what is
known of the form, such as which characters a numeral has and how it ends, is known of every text
that is read.
-/

set_option autoImplicit false

namespace TypedVars.Numeral

open Digits (IsDigits OpensUnsigned splitSign toInt?)
open Text (isDigit isDigitOrPoint opensNumber)

/-! ## The grammar -/

/-- An optional sign. -/
def IsSign (text : Text) : Prop := text = [] ∨ text = ['+'] ∨ text = ['-']

/-- An exponent that may be left out: a mark, an optional sign and digits. -/
inductive IsExponent : Text → Prop
  | absent : IsExponent []
  | present {mark : Char} {sign digits : Text} (hmark : mark = 'e' ∨ mark = 'E')
      (hsign : IsSign sign) (hne : digits ≠ []) (hdigits : IsDigits digits) :
      IsExponent (mark :: (sign ++ digits))

/-- Digits with an optional point among them, and at least one digit. -/
inductive IsMantissa : Text → Prop
  | whole {digits : Text} (hne : digits ≠ []) (hdigits : IsDigits digits) : IsMantissa digits
  | point {whole part : Text} (hne : whole ≠ [] ∨ part ≠ []) (hwhole : IsDigits whole)
      (hpart : IsDigits part) : IsMantissa (whole ++ '.' :: part)

/-- The words that are numerals, in lower case. -/
def words : List Text :=
  [['i', 'n', 'f'], ['i', 'n', 'f', 'i', 'n', 'i', 't', 'y'], ['n', 'a', 'n']]

/-- What follows the sign of a numeral. -/
inductive IsBody : Text → Prop
  | word {text : Text} (hword : text.map lowerCase ∈ words) : IsBody text
  | decimal {mantissa exponent : Text} (hmantissa : IsMantissa mantissa)
      (hexponent : IsExponent exponent) : IsBody (mantissa ++ exponent)

/-- A numeral is an optional sign and a body. -/
def IsNumeral (text : Text) : Prop := ∃ sign body, text = sign ++ body ∧ IsSign sign ∧ IsBody body

/-! ## Characters -/

/-- A letter of ASCII. -/
def IsLetter (c : Char) : Prop :=
  (65 ≤ c.toNat ∧ c.toNat ≤ 90) ∨ (97 ≤ c.toNat ∧ c.toNat ≤ 122)

instance (c : Char) : Decidable (IsLetter c) := inferInstanceAs (Decidable (_ ∨ _))

/-- A character that is a letter in lower case is a letter. -/
theorem isLetter_of_isLetter_lowerCase {c : Char} (h : IsLetter (lowerCase c)) : IsLetter c := by
  rw [lowerCase] at h
  split at h
  · next hupper =>
    simp only [Char.le_def, UInt32.le_iff_toNat_le] at hupper
    exact .inl hupper
  · exact h

/-- The spelled numbers consist of letters. -/
theorem isLetter_of_mem_word {text : Text} (h : text.map lowerCase ∈ words) {c : Char}
    (hc : c ∈ text) : IsLetter c := by
  have hletters : ∀ word ∈ words, ∀ c ∈ word, IsLetter c := by simp [words, IsLetter]
  exact isLetter_of_isLetter_lowerCase (hletters _ h (lowerCase c) (List.mem_map_of_mem hc))

/-- Such a character is a digit or a point. -/
theorem isDigitOrPoint_iff {c : Char} :
    isDigitOrPoint c = true ↔ isDigit c = true ∨ c = '.' := by
  simp [isDigitOrPoint]

/-- No digit and no point is a letter. -/
theorem not_isLetter_of_isDigitOrPoint {c : Char} (h : isDigitOrPoint c = true) : ¬ IsLetter c := by
  intro hletter
  unfold IsLetter at hletter
  rcases isDigitOrPoint_iff.1 h with hdigit | rfl
  · have := Digits.isDigit_iff.1 hdigit
    omega
  · exact absurd hletter (by decide)

/-- A mantissa consists of digits and points. -/
theorem IsMantissa.isDigitOrPoint_of_mem {mantissa : Text} (h : IsMantissa mantissa) {c : Char}
    (hc : c ∈ mantissa) : isDigitOrPoint c = true := by
  rw [isDigitOrPoint_iff]
  cases h with
  | whole _ hdigits => exact .inl (hdigits c hc)
  | point _ hwhole hpart =>
    rcases List.mem_append.1 hc with hc | hc
    · exact .inl (hwhole c hc)
    · rcases List.mem_cons.1 hc with rfl | hc
      · exact .inr rfl
      · exact .inl (hpart c hc)

/-- A mantissa is not empty. -/
theorem IsMantissa.ne_nil {mantissa : Text} (h : IsMantissa mantissa) : mantissa ≠ [] := by
  cases h with
  | whole hne _ => exact hne
  | point _ _ _ => simp

/-- A mantissa opens a number, whatever follows it. -/
theorem IsMantissa.opensNumber_append {mantissa : Text} (h : IsMantissa mantissa) (rest : Text) :
    opensNumber (mantissa ++ rest) = true := by
  obtain ⟨c, others, rfl⟩ := List.exists_cons_of_ne_nil h.ne_nil
  exact h.isDigitOrPoint_of_mem (by simp)

/-- A mantissa opens a number. -/
theorem IsMantissa.opensNumber {mantissa : Text} (h : IsMantissa mantissa) :
    opensNumber mantissa = true := by
  have hopens := h.opensNumber_append []
  rwa [List.append_nil] at hopens

/-- A mantissa alone is the body of a numeral. -/
theorem IsMantissa.isBody {mantissa : Text} (h : IsMantissa mantissa) : IsBody mantissa := by
  have hbody := IsBody.decimal h .absent
  rwa [List.append_nil] at hbody

/-- A body starts with a digit, a point or a letter. -/
theorem IsBody.exists_cons {body : Text} (h : IsBody body) :
    ∃ c rest, body = c :: rest ∧ (isDigitOrPoint c = true ∨ IsLetter c) := by
  cases h with
  | word hword =>
    cases body with
    | nil => exact absurd hword (by decide)
    | cons c rest => exact ⟨c, rest, rfl, .inr (isLetter_of_mem_word hword (by simp))⟩
  | @decimal mantissa exponent hmantissa _ =>
    obtain ⟨c, rest, rfl⟩ := List.exists_cons_of_ne_nil hmantissa.ne_nil
    exact ⟨c, rest ++ exponent, rfl, .inl (hmantissa.isDigitOrPoint_of_mem (by simp))⟩

/-- The body of a numeral is not empty. -/
theorem IsBody.ne_nil {body : Text} (h : IsBody body) : body ≠ [] := by
  obtain ⟨c, rest, rfl, -⟩ := h.exists_cons
  simp

/-- A character of a numeral: a digit, a point, a sign or a letter. -/
def IsNumeralCharacter (c : Char) : Prop :=
  isDigitOrPoint c = true ∨ c = '+' ∨ c = '-' ∨ IsLetter c

instance (c : Char) : Decidable (IsNumeralCharacter c) := inferInstanceAs (Decidable (_ ∨ _))

/-- A sign consists of characters of numerals. -/
theorem IsSign.isNumeralCharacter {sign : Text} (h : IsSign sign) {c : Char} (hc : c ∈ sign) :
    IsNumeralCharacter c := by
  rcases h with rfl | rfl | rfl
  · simp at hc
  · exact .inr (.inl (by simpa using hc))
  · exact .inr (.inr (.inl (by simpa using hc)))

/-- A numeral consists of characters of numerals. -/
theorem IsNumeral.isNumeralCharacter {text : Text} (h : IsNumeral text) {c : Char} (hc : c ∈ text) :
    IsNumeralCharacter c := by
  obtain ⟨sign, body, rfl, hsign, hbody⟩ := h
  rcases List.mem_append.1 hc with hc | hc
  · exact hsign.isNumeralCharacter hc
  cases hbody with
  | word hword => exact .inr (.inr (.inr (isLetter_of_mem_word hword hc)))
  | decimal hmantissa hexponent =>
    rcases List.mem_append.1 hc with hc | hc
    · exact .inl (hmantissa.isDigitOrPoint_of_mem hc)
    cases hexponent with
    | absent => simp at hc
    | present hmark hsign _ hdigits =>
      rcases List.mem_cons.1 hc with rfl | hc
      · rcases hmark with rfl | rfl <;> exact .inr (.inr (.inr (by simp [IsLetter])))
      · rcases List.mem_append.1 hc with hc | hc
        · exact hsign.isNumeralCharacter hc
        · exact .inl (isDigitOrPoint_iff.2 (.inl (hdigits c hc)))

/-- The characters of numerals are printable characters of ASCII. -/
theorem IsNumeralCharacter.ascii {c : Char} (h : IsNumeralCharacter c) :
    0x21 ≤ c.toNat ∧ c.toNat ≤ 0x7E := by
  rcases h with h | rfl | rfl | h
  · rcases isDigitOrPoint_iff.1 h with h | rfl
    · have := Digits.isDigit_iff.1 h
      omega
    · decide
  · decide
  · decide
  · rcases h with h | h <;> omega

/-- A numeral is one word. -/
theorem IsNumeral.isWord {text : Text} (h : IsNumeral text) : Text.IsWord text := by
  constructor
  · obtain ⟨sign, body, rfl, -, hbody⟩ := h
    simp [hbody.ne_nil]
  · intro c hc
    obtain ⟨hlow, hhigh⟩ := (h.isNumeralCharacter hc).ascii
    exact Text.isBlank_eq_false_of_ascii hlow hhigh

/-! ## The last character -/

/-- No digit and no point is the mark of an exponent. -/
theorem ne_mark_of_isDigitOrPoint {c : Char} (h : isDigitOrPoint c = true) : c ≠ 'e' ∧ c ≠ 'E' := by
  constructor <;> rintro rfl <;> exact absurd h (by decide)

/-- No spelled number ends in the mark of an exponent. -/
theorem ne_mark_of_mem_words {front : Text} {c : Char}
    (h : (front ++ [c]).map lowerCase ∈ words) : c ≠ 'e' ∧ c ≠ 'E' := by
  have hlast : ∀ word ∈ words, word.getLast? ≠ some 'e' := by decide
  have hc : some (lowerCase c) ≠ some 'e' := by
    simpa using hlast _ h
  constructor <;> rintro rfl <;> exact absurd rfl hc

/-- A numeral ends in a character that is no exponent mark. -/
theorem IsNumeral.exists_last {text : Text} (h : IsNumeral text) :
    ∃ front c, text = front ++ [c] ∧ c ≠ 'e' ∧ c ≠ 'E' := by
  obtain ⟨sign, body, rfl, -, hbody⟩ := h
  have hlast {tail : Text} (hne : tail ≠ []) : ∃ front c, tail = front ++ [c] :=
    ⟨_, _, (List.dropLast_concat_getLast hne).symm⟩
  cases hbody with
  | word hword =>
    obtain ⟨front, c, rfl⟩ := hlast (IsBody.word hword).ne_nil
    exact ⟨sign ++ front, c, by simp, ne_mark_of_mem_words hword⟩
  | @decimal mantissa exponent hmantissa hexponent =>
    cases hexponent with
    | absent =>
      obtain ⟨front, c, rfl⟩ := hlast hmantissa.ne_nil
      have hc := hmantissa.isDigitOrPoint_of_mem (c := c) (by simp)
      exact ⟨sign ++ front, c, by simp, ne_mark_of_isDigitOrPoint hc⟩
    | @present mark exponentSign digits hmark _ hne hdigits =>
      obtain ⟨front, c, rfl⟩ := hlast hne
      have hc := isDigitOrPoint_iff.2 (.inl (hdigits c (by simp)))
      exact ⟨sign ++ (mantissa ++ mark :: (exponentSign ++ front)), c, by simp,
        ne_mark_of_isDigitOrPoint hc⟩

/-! ## Reading -/

/-- A sign in front of a text without one is split off. -/
theorem splitSign_append {sign rest : Text} (hsign : IsSign sign) (hrest : OpensUnsigned rest) :
    splitSign (sign ++ rest) = (decide (sign = ['-']), rest) := by
  rcases hsign with rfl | rfl | rfl
  · exact Digits.splitSign_of_opensUnsigned hrest
  · rfl
  · rfl

/-- Every text is a sign, which may be empty, and what is left when it is split off. -/
theorem exists_sign (text : Text) : ∃ sign, text = sign ++ (splitSign text).2 ∧ IsSign sign := by
  unfold splitSign
  split
  · exact ⟨['-'], rfl, .inr (.inr rfl)⟩
  · exact ⟨['+'], rfl, .inr (.inl rfl)⟩
  · exact ⟨[], rfl, .inl rfl⟩

/-- The integers that are read are digits behind an optional sign. -/
theorem toInt?_isSome_iff {text : Text} : (toInt? text).isSome = true ↔
    ∃ sign digits, text = sign ++ digits ∧ IsSign sign ∧ digits ≠ [] ∧ IsDigits digits := by
  constructor
  · intro h
    obtain ⟨sign, htext, hsign⟩ := exists_sign text
    refine ⟨sign, (splitSign text).2, htext, hsign, ?_⟩
    simp only [toInt?] at h
    split at h
    · simp at h
    · next hdigits =>
      simpa [IsDigits] using hdigits
  · rintro ⟨sign, digits, rfl, hsign, hne, hdigits⟩
    have hsplit := splitSign_append hsign hdigits.opensUnsigned
    rw [Digits.toInt?_eq_some hsplit hne hdigits]
    rfl

/-- A text is read as an exponent just when it is one. -/
theorem exponentOf?_isSome_iff {text : Text} :
    (exponentOf? text).isSome = true ↔ IsExponent text := by
  constructor
  · intro h
    cases text with
    | nil => exact .absent
    | cons mark rest =>
      rw [exponentOf?] at h
      split at h
      · next hmark =>
        obtain ⟨sign, digits, rfl, hsign, hne, hdigits⟩ := toInt?_isSome_iff.1 h
        exact .present hmark hsign hne hdigits
      · simp at h
  · intro h
    cases h with
    | absent => rfl
    | present hmark hsign hne hdigits =>
      rw [exponentOf?, if_pos hmark]
      exact toInt?_isSome_iff.2 ⟨_, _, rfl, hsign, hne, hdigits⟩

/-- An exponent starts with no digit and no point. -/
theorem IsExponent.not_isDigitOrPoint {exponent rest : Text} {c : Char} (h : IsExponent exponent)
    (hc : exponent = c :: rest) : isDigitOrPoint c = false := by
  cases h with
  | absent => simp at hc
  | present hmark _ _ _ =>
    obtain rfl := (List.cons.inj hc).1
    rcases hmark with rfl | rfl <;> decide

/-- Digits are split off up to the first character that is no digit. -/
theorem span_isDigit {digits rest : Text} (hdigits : IsDigits digits)
    (hrest : ∀ c tail, rest = c :: tail → isDigit c = false) :
    (digits ++ rest).takeWhile isDigit = digits ∧ (digits ++ rest).dropWhile isDigit = rest := by
  rw [List.takeWhile_append_of_pos hdigits, List.dropWhile_append_of_pos hdigits]
  cases rest with
  | nil => simp
  | cons c tail => simp [hrest c tail rfl]

/-- A mantissa without a point is read with what is read of the exponent behind it. -/
theorem decimalOf?_whole {digits exponent : Text} (hne : digits ≠ []) (hdigits : IsDigits digits)
    (hexponent : IsExponent exponent) :
    decimalOf? (digits ++ exponent) =
      (exponentOf? exponent).map fun power => ⟨Digits.toNat digits, power⟩ := by
  have hpoint {c : Char} {tail : Text} (hc : exponent = c :: tail) :=
    hexponent.not_isDigitOrPoint hc
  obtain ⟨htake, hdrop⟩ := span_isDigit hdigits fun c tail hc => by
    simpa [isDigitOrPoint] using (Bool.or_eq_false_iff.1 (hpoint hc)).1
  have hempty : digits.isEmpty = false := List.isEmpty_eq_false_iff.2 hne
  rw [decimalOf?, htake, hdrop]
  cases exponent with
  | nil => simp [hempty, exponentOf?]
  | cons c tail =>
    have hc : c ≠ '.' := by
      rintro rfl
      exact absurd (hpoint rfl) (by decide)
    simp [hempty, hc]

/-- A mantissa with a point is read with what is read of the exponent behind it. -/
theorem decimalOf?_point {whole part exponent : Text} (hne : whole ≠ [] ∨ part ≠ [])
    (hwhole : IsDigits whole) (hpart : IsDigits part) (hexponent : IsExponent exponent) :
    decimalOf? (whole ++ '.' :: part ++ exponent) =
      (exponentOf? exponent).map fun power =>
        ⟨Digits.toNat (whole ++ part), power - part.length⟩ := by
  have hpoint (c : Char) (tail : Text) (hc : '.' :: (part ++ exponent) = c :: tail) :
      isDigit c = false := by
    obtain rfl := (List.cons.inj hc).1
    decide
  obtain ⟨htake, hdrop⟩ := span_isDigit hwhole hpoint
  obtain ⟨htakePart, hdropPart⟩ := span_isDigit hpart fun c tail hc =>
    (Bool.or_eq_false_iff.1 (hexponent.not_isDigitOrPoint hc)).1
  have hempty : (whole.isEmpty && part.isEmpty) = false := by
    rcases hne with hne | hne <;> simp [hne]
  rw [List.append_assoc, List.cons_append, decimalOf?, htake, hdrop]
  simp only [htakePart, hdropPart, hempty, Bool.false_eq_true, if_false]

/-- A text is read as a decimal just when it is a mantissa with an exponent. -/
theorem decimalOf?_isSome_iff {text : Text} : (decimalOf? text).isSome = true ↔
    ∃ mantissa exponent, text = mantissa ++ exponent ∧ IsMantissa mantissa ∧
      IsExponent exponent := by
  constructor
  · intro h
    have hdigits (run : Text) : IsDigits (run.takeWhile isDigit) := fun c hc =>
      List.all_eq_true.1 List.all_takeWhile c hc
    have hwhole := hdigits text
    have htext := List.takeWhile_append_dropWhile (p := isDigit) (l := text)
    unfold decimalOf? at h
    generalize text.takeWhile isDigit = whole at h hwhole htext
    generalize text.dropWhile isDigit = rest at h htext
    subst htext
    dsimp only at h
    split at h
    · next after =>
      have hafter := List.takeWhile_append_dropWhile (p := isDigit) (l := after)
      split at h
      · simp at h
      next hne =>
      rw [Option.isSome_map] at h
      refine ⟨whole ++ '.' :: after.takeWhile isDigit, after.dropWhile isDigit, ?_, ?_,
        exponentOf?_isSome_iff.1 h⟩
      · rw [List.append_assoc, List.cons_append, hafter]
      · rw [Bool.and_eq_true, Decidable.not_and_iff_not_or_not] at hne
        exact .point (by simpa using hne) hwhole (hdigits after)
    · split at h
      · simp at h
      next hne =>
      rw [Option.isSome_map] at h
      exact ⟨whole, rest, rfl, .whole (by simpa using hne) hwhole, exponentOf?_isSome_iff.1 h⟩
  · rintro ⟨mantissa, exponent, rfl, hmantissa, hexponent⟩
    have hpower := exponentOf?_isSome_iff.2 hexponent
    cases hmantissa with
    | whole hne hdigits => rw [decimalOf?_whole hne hdigits hexponent, Option.isSome_map, hpower]
    | point hne hwhole hpart =>
      rw [decimalOf?_point hne hwhole hpart hexponent, Option.isSome_map, hpower]

/-- The body of a numeral opens without a sign. -/
theorem IsBody.opensUnsigned {body : Text} (h : IsBody body) : OpensUnsigned body := by
  rintro c rest rfl
  obtain ⟨_, _, hcons, hc⟩ := h.exists_cons
  obtain ⟨rfl, -⟩ := List.cons.inj hcons
  constructor <;> rintro rfl <;> exact absurd hc (by decide)

/-- Behind its sign a text is read when it is a body. -/
theorem ofText?_isSome_of_splitSign {text body : Text} {negative : Bool}
    (hsplit : splitSign text = (negative, body)) : (ofText? text).isSome = true ↔ IsBody body := by
  simp only [ofText?, hsplit]
  constructor
  · intro h
    split at h
    · next hword => exact .word (by rcases hword with hword | hword <;> simp [hword, words])
    split at h
    · next hword => exact .word (by simp [hword, words])
    · rw [Option.isSome_map] at h
      obtain ⟨mantissa, exponent, rfl, hmantissa, hexponent⟩ := decimalOf?_isSome_iff.1 h
      exact .decimal hmantissa hexponent
  · intro h
    split
    · rfl
    next hinfinity =>
    split
    · rfl
    next hnan =>
    rw [Option.isSome_map, decimalOf?_isSome_iff]
    cases h with
    | word hword => simp_all [words]
    | decimal hmantissa hexponent => exact ⟨_, _, rfl, hmantissa, hexponent⟩

/-- Behind its sign a text that is read as a decimal is none of the words. -/
theorem ofText?_of_decimalOf? {text body : Text} {negative : Bool} {d : Decimal}
    (hsplit : splitSign text = (negative, body)) (hread : decimalOf? body = some d) :
    ofText? text = some (.decimal negative d) := by
  have hword : body.map lowerCase ∉ words := by
    intro hword
    obtain ⟨mantissa, exponent, rfl, hmantissa, -⟩ :=
      decimalOf?_isSome_iff.1 (Option.isSome_of_eq_some hread)
    obtain ⟨c, rest, rfl⟩ := List.exists_cons_of_ne_nil hmantissa.ne_nil
    have hletter := isLetter_of_mem_word hword (c := c) (by simp)
    have hdigit := hmantissa.isDigitOrPoint_of_mem (c := c) (by simp)
    exact not_isLetter_of_isDigitOrPoint hdigit hletter
  obtain ⟨hinfinity, hnan⟩ : ¬ (body.map lowerCase = ['i', 'n', 'f'] ∨
      body.map lowerCase = ['i', 'n', 'f', 'i', 'n', 'i', 't', 'y']) ∧
      body.map lowerCase ≠ ['n', 'a', 'n'] := by
    simpa [words, and_assoc] using hword
  simp only [ofText?, hsplit]
  rw [if_neg hinfinity, if_neg hnan, hread]
  rfl

/-- The numerals that are read are those of the grammar. -/
theorem ofText?_isSome_iff {text : Text} : (ofText? text).isSome = true ↔ IsNumeral text := by
  constructor
  · intro h
    obtain ⟨sign, htext, hsign⟩ := exists_sign text
    exact ⟨sign, _, htext, hsign, (ofText?_isSome_of_splitSign rfl).1 h⟩
  · rintro ⟨sign, body, rfl, hsign, hbody⟩
    exact (ofText?_isSome_of_splitSign (splitSign_append hsign hbody.opensUnsigned)).2 hbody

end TypedVars.Numeral

namespace TypedVars

/-- A text is read as a number of a format exactly when it is a numeral. -/
theorem Binary.ofText?_isSome_iff {F : Format} {text : Text} :
    (Binary.ofText? F text).isSome = true ↔ Numeral.IsNumeral text := by
  rw [Binary.ofText?, Option.isSome_map, Numeral.ofText?_isSome_iff]

end TypedVars
