import TypedVars.Text.Blank

/-!
# The words of a composed text

A blank splits the words of a text: those on its left and those on its right do not depend on each
other. Everything else about words follows from this one equation: how a text is taken apart into
its first word and the rest, and which words a text put together from words and blanks has.
-/

set_option autoImplicit false

namespace TypedVars.Text

/-- A run of blanks, possibly empty. -/
def Blanks (text : Text) : Prop := ∀ c ∈ text, isBlank c = true

instance (text : Text) : Decidable (Blanks text) :=
  decidable_of_iff (text.all isBlank = true) (by simp [Blanks])

/-- A text that can be a word: it has characters, and none of them is a blank. -/
def IsWord (text : Text) : Prop := text ≠ [] ∧ ∀ c ∈ text, isBlank c = false

instance (text : Text) : Decidable (IsWord text) :=
  decidable_of_iff ((!text.isEmpty && text.all fun c => !isBlank c) = true) (by simp [IsWord])

/-- A blank in front of blanks makes blanks. -/
theorem Blanks.cons {c : Char} {gap : Text} (hc : isBlank c = true) (h : Blanks gap) :
    Blanks (c :: gap) :=
  List.forall_mem_cons.2 ⟨hc, h⟩

/-- Blanks behind blanks are blanks. -/
theorem Blanks.append {left right : Text} (hleft : Blanks left) (hright : Blanks right) :
    Blanks (left ++ right) := by
  intro c hc
  rcases List.mem_append.1 hc with hc | hc
  · exact hleft c hc
  · exact hright c hc

/-- No word opens at a run of blanks, nor behind it unless it is empty. -/
theorem Blanks.opensWord_append {gap rest : Text} (hgap : Blanks gap) (h : gap ≠ [] ∨ rest = []) :
    opensWord (gap ++ rest) = false := by
  cases gap with
  | nil =>
    obtain rfl := h.resolve_left (by simp)
    rfl
  | cons c gap => simp [opensWord, hgap c (by simp)]

/-- No word opens with blanks. -/
theorem Blanks.opensWord_eq {gap : Text} (hgap : Blanks gap) : opensWord gap = false := by
  have hopens := hgap.opensWord_append (.inr rfl)
  rwa [List.append_nil] at hopens

/-- A word behind a word without a blank in between makes one word. -/
theorem IsWord.append {left right : Text} (hleft : IsWord left) (hright : IsWord right) :
    IsWord (left ++ right) := by
  refine ⟨by simp [hleft.1], ?_⟩
  intro c hc
  rcases List.mem_append.1 hc with hc | hc
  · exact hleft.2 c hc
  · exact hright.2 c hc

/-- No visible ASCII character is a blank. -/
theorem isBlank_eq_false_of_ascii {c : Char} (hlow : 0x21 ≤ c.toNat) (hhigh : c.toNat ≤ 0x7E) :
    isBlank c = false := by
  simp only [isBlank, Bool.or_eq_false_iff, Bool.and_eq_false_iff, decide_eq_false_iff_not,
    beq_eq_false_iff_ne]
  omega

/-- A text that opens a word has a word. -/
theorem words_ne_nil_of_opensWord {text : Text} (h : opensWord text = true) : words text ≠ [] := by
  cases text with
  | nil => simp [opensWord] at h
  | cons c rest =>
    have hc : isBlank c = false := by simpa [opensWord] using h
    rw [words, if_neg (by simp [hc])]
    split
    · cases words rest <;> simp [extendFirst]
    · simp

/-- Words split at a blank. -/
theorem words_append_blank (left right : Text) {c : Char} (hc : isBlank c = true) :
    words (left ++ c :: right) = words left ++ words right := by
  induction left with
  | nil => simp [words, hc]
  | cons a left ih =>
    have hopens : opensWord (left ++ c :: right) = opensWord left := by
      cases left <;> simp [opensWord, hc]
    rw [List.cons_append, words, words, hopens, ih]
    split
    · rfl
    split
    · next hleft =>
      -- the first word of the whole is the first word on the left
      obtain ⟨first, others, hwords⟩ :=
        List.exists_cons_of_ne_nil (words_ne_nil_of_opensWord hleft)
      simp [hwords, extendFirst]
    · simp

/-- Blanks in front of a text change none of its words. -/
theorem words_blanks_append {gap : Text} (h : Blanks gap) (rest : Text) :
    words (gap ++ rest) = words rest := by
  induction gap with
  | nil => rfl
  | cons c gap ih =>
    rw [List.cons_append, words_cons_blank (h c (by simp))]
    exact ih fun a ha => h a (by simp [ha])

/-- A word is its only word. -/
theorem words_of_isWord {word : Text} (h : IsWord word) : words word = [word] := by
  obtain ⟨hne, hblank⟩ := h
  induction word with
  | nil => exact absurd rfl hne
  | cons c word ih =>
    rw [words, if_neg (by simp [hblank c (by simp)])]
    cases word with
    | nil => simp [opensWord, words]
    | cons a word =>
      have hword := ih (by simp) fun b hb => hblank b (by simp [hb])
      rw [if_pos (by simp [opensWord, hblank a (by simp)]), hword, extendFirst]

/-- A word in front of the end of a text or of a blank is its first word. -/
theorem words_isWord_append {word rest : Text} (h : IsWord word) (hrest : opensWord rest = false) :
    words (word ++ rest) = word :: words rest := by
  cases rest with
  | nil => simp [words_of_isWord h, words]
  | cons c rest =>
    have hc : isBlank c = true := by simpa [opensWord] using hrest
    rw [words_append_blank _ _ hc, words_of_isWord h, words_cons_blank hc, List.singleton_append]

/-- A text that has a first word is a gap, that word, and a rest that does not continue it. -/
theorem exists_of_words_eq_cons {text word : Text} {others : List Text}
    (h : words text = word :: others) :
    ∃ gap rest, text = gap ++ word ++ rest ∧ Blanks gap ∧ IsWord word ∧ opensWord rest = false ∧
      words rest = others := by
  induction text generalizing word others with
  | nil => simp [words] at h
  | cons c text ih =>
    rw [words] at h
    split at h
    · next hc =>
      obtain ⟨gap, rest, rfl, hgap, hword, hrest, hothers⟩ := ih h
      exact ⟨c :: gap, rest, by simp, hgap.cons hc, hword, hrest, hothers⟩
    next hc =>
    have hc : isBlank c = false := by simpa using hc
    split at h
    · next hopens =>
      obtain ⟨first, tail, hwords⟩ :=
        List.exists_cons_of_ne_nil (words_ne_nil_of_opensWord hopens)
      rw [hwords, extendFirst, List.cons.injEq] at h
      obtain ⟨rfl, rfl⟩ := h
      obtain ⟨gap, rest, rfl, hgap, hfirst, hrest, htail⟩ := ih hwords
      -- the rest of the text opens a word, so that nothing stands in front of it
      have hnil : gap = [] := by
        cases gap with
        | nil => rfl
        | cons a gap =>
          have ha : isBlank a = true := hgap a (by simp)
          simp [opensWord, ha] at hopens
      subst hnil
      have hword : IsWord (c :: first) := ⟨by simp, List.forall_mem_cons.2 ⟨hc, hfirst.2⟩⟩
      exact ⟨[], rest, by simp, by simp [Blanks], hword, hrest, htail⟩
    · next hopens =>
      rw [List.cons.injEq] at h
      obtain ⟨rfl, rfl⟩ := h
      have hword : IsWord [c] := ⟨by simp, by simpa using hc⟩
      exact ⟨[], text, by simp, by simp [Blanks], hword, by simpa using hopens, rfl⟩

/-- A text without words consists of blanks. -/
theorem blanks_of_words_eq_nil {text : Text} (h : words text = []) : Blanks text := by
  induction text with
  | nil => simp [Blanks]
  | cons c text ih =>
    have hc : isBlank c = true := by
      cases hblank : isBlank c with
      | true => rfl
      | false =>
        have hopens : opensWord (c :: text) = true := by simp [opensWord, hblank]
        exact absurd h (words_ne_nil_of_opensWord hopens)
    rw [words_cons_blank hc] at h
    exact (ih h).cons hc

/-- Every word of a text has characters, and none of them is a blank. -/
theorem isWord_of_mem_words {text word : Text} (h : word ∈ words text) : IsWord word := by
  generalize hwords : words text = all at h
  induction all generalizing text with
  | nil => simp at h
  | cons first others ih =>
    obtain ⟨_, rest, -, -, hfirst, -, hothers⟩ := exists_of_words_eq_cons hwords
    rcases List.mem_cons.1 h with rfl | h
    · exact hfirst
    · exact ih hothers h

/-- Words joined by single spaces are the words of the joined text. -/
theorem words_joinWith_space {all : List Text} (h : ∀ word ∈ all, IsWord word) :
    words (joinWith [' '] all) = all := by
  induction all with
  | nil => rfl
  | cons first others ih =>
    have hfirst := h first (by simp)
    cases others with
    | nil => exact words_of_isWord hfirst
    | cons second others =>
      have hspace : isBlank ' ' = true := by decide
      show words (first ++ [' '] ++ joinWith [' '] (second :: others)) = _
      rw [List.append_assoc, List.singleton_append, words_append_blank _ _ hspace,
        words_of_isWord hfirst, ih fun word hword => h word (List.mem_cons_of_mem _ hword),
        List.singleton_append]

end TypedVars.Text
