import TypedVars.Proofs.Text.Words

/-!
# Occurrences in words

A pattern without blanks cannot reach across a gap, so it occurs in a text exactly when it occurs in
one of its words. Whether one of some symbols stands in a text is therefore a matter of the words of
the text, and not of the blanks between them.
-/

set_option autoImplicit false

namespace TypedVars.Text

variable {pattern : Text}

/-- No occurrence of a word reaches beyond the end of another word. -/
theorem IsWord.infix_append_iff (h : IsWord pattern) (word : Text) {rest : Text}
    (hrest : opensWord rest = false) :
    pattern <:+: word ++ rest ↔ pattern <:+: word ∨ pattern <:+: rest := by
  rw [List.infix_append_iff_ne_nil]
  constructor
  · rintro (hword | hbehind | ⟨left, right, -, hright, rfl, -, hopens⟩)
    · exact .inl hword
    · exact .inr hbehind
    · -- the part behind the word would start with a blank
      exfalso
      obtain ⟨c, right, rfl⟩ := List.exists_cons_of_ne_nil hright
      obtain ⟨tail, rfl⟩ := hopens
      have hc := h.2 c (by simp)
      simp [opensWord, hc] at hrest
  · intro hpattern
    rcases hpattern with hword | hbehind
    · exact .inl hword
    · exact .inr (.inl hbehind)

/-- No occurrence of a word begins in the blanks in front of another word. -/
theorem IsWord.infix_blanks_append_iff (h : IsWord pattern) {gap : Text} (hgap : Blanks gap)
    (rest : Text) : pattern <:+: gap ++ rest ↔ pattern <:+: rest := by
  constructor
  · intro hpattern
    obtain ⟨c, tail, rfl⟩ := List.exists_cons_of_ne_nil h.1
    have hc := h.2 c (by simp)
    have hnot : c ∉ gap := by
      intro hmem
      rw [hgap c hmem] at hc
      simp at hc
    rcases List.infix_append_iff_ne_nil.1 hpattern with
      hinside | hbehind | ⟨left, right, hleft, -, hsplit, hsuffix, -⟩
    · exact absurd (hinside.subset (by simp)) hnot
    · exact hbehind
    · obtain ⟨d, left, rfl⟩ := List.exists_cons_of_ne_nil hleft
      obtain rfl : c = d := (List.cons.inj hsplit).1
      exact absurd (hsuffix.subset (by simp)) hnot
  · exact List.infix_append_of_infix_right

/-- A word does not occur in blanks. -/
theorem IsWord.not_infix_of_blanks (h : IsWord pattern) {gap : Text} (hgap : Blanks gap) :
    ¬ pattern <:+: gap := by
  intro hpattern
  have hnil := h.infix_blanks_append_iff hgap []
  rw [List.append_nil, List.infix_nil] at hnil
  exact h.1 (hnil.1 hpattern)

/-- A pattern without blanks occurs in a text where it occurs in one of its words. -/
theorem IsWord.infix_iff_exists_mem_words (h : IsWord pattern) (text : Text) :
    pattern <:+: text ↔ ∃ word ∈ words text, pattern <:+: word := by
  generalize hwords : words text = all
  -- the induction takes the words off the front of the text, one by one
  induction all generalizing text with
  | nil => simpa using h.not_infix_of_blanks (blanks_of_words_eq_nil hwords)
  | cons first others ih =>
    obtain ⟨gap, rest, rfl, hgap, -, hrest, hothers⟩ := exists_of_words_eq_cons hwords
    rw [List.append_assoc, h.infix_blanks_append_iff hgap, h.infix_append_iff first hrest,
      ih rest hothers]
    simp

/-- One of some symbols occurs in a text when one occurs in a word of it. -/
theorem any_occursIn_eq_any_words {symbols : List Text} (h : ∀ symbol ∈ symbols, IsWord symbol)
    (text : Text) : (symbols.any fun symbol => occursIn symbol text) =
      (words text).any fun word => symbols.any fun symbol => occursIn symbol word := by
  rw [Bool.eq_iff_iff]
  simp only [List.any_eq_true, occursIn_iff]
  constructor
  · rintro ⟨symbol, hsymbol, hinfix⟩
    obtain ⟨word, hword, hinside⟩ := ((h symbol hsymbol).infix_iff_exists_mem_words text).1 hinfix
    exact ⟨word, hword, symbol, hsymbol, hinside⟩
  · rintro ⟨word, hword, symbol, hsymbol, hinside⟩
    refine ⟨symbol, hsymbol, ?_⟩
    exact ((h symbol hsymbol).infix_iff_exists_mem_words text).2 ⟨word, hword, hinside⟩

end TypedVars.Text
