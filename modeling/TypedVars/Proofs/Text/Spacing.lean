import TypedVars.Proofs.Text.Division
import TypedVars.Proofs.Text.Words

/-!
# Spaced pieces

A text consists of its pieces and of blanks. The pieces that its words are divided into stand in it
in their order, with runs of blanks between them and at both ends.
-/

set_option autoImplicit false

namespace TypedVars.Text

variable {operators : List Text}

/-- A text that consists of parts in their order, with runs of blanks, which may be empty, in front
of each and behind the last. -/
def Spaced : List Text → Text → Prop
  | [], text => Blanks text
  | part :: others, text =>
    ∃ gap rest, text = gap ++ (part ++ rest) ∧ Blanks gap ∧ Spaced others rest

/-- Further blanks may stand in front of spaced parts. -/
theorem Spaced.blanks_append {parts : List Text} {gap text : Text} (hgap : Blanks gap)
    (h : Spaced parts text) : Spaced parts (gap ++ text) := by
  cases parts with
  | nil => exact hgap.append h
  | cons part others =>
    obtain ⟨inner, rest, rfl, hinner, hrest⟩ := h
    exact ⟨gap ++ inner, rest, by simp, hgap.append hinner, hrest⟩

/-- Parts may be put in front of a spaced text without blanks between them. -/
theorem Spaced.flatten_append (parts : List Text) {others : List Text} {text : Text}
    (h : Spaced others text) :
    Spaced (parts ++ others) (parts.flatten ++ text) := by
  induction parts with
  | nil => exact h
  | cons part parts ih => exact ⟨[], parts.flatten ++ text, by simp, by simp [Blanks], ih⟩

/-- A text is spaced by the pieces of its words. -/
theorem spaced_splitOperators_words (operators : List Text) (text : Text) :
    Spaced (splitOperators operators (words text)) text := by
  generalize hwords : words text = all
  induction all generalizing text with
  | nil => exact blanks_of_words_eq_nil hwords
  | cons word others ih =>
    obtain ⟨gap, rest, rfl, hgap, -, -, hothers⟩ := exists_of_words_eq_cons hwords
    have hrest := (ih rest hothers).flatten_append (texts operators word)
    rw [flatten_texts] at hrest
    rw [splitOperators_cons, List.append_assoc]
    exact hrest.blanks_append hgap

/-- The pieces of a text are those of its first word and those of the rest. -/
theorem splitOperators_words_append {gap word rest : Text} (hgap : Blanks gap) (hword : IsWord word)
    (hrest : opensWord rest = false) :
    splitOperators operators (words (gap ++ (word ++ rest))) =
      texts operators word ++ splitOperators operators (words rest) := by
  rw [words_blanks_append hgap, words_isWord_append hword hrest, splitOperators_cons]

/-- Blanks have no tokens. -/
theorem splitOperators_words_blanks {gap : Text} (hgap : Blanks gap) :
    splitOperators operators (words gap) = [] := by
  have hwords := words_blanks_append hgap []
  rw [List.append_nil] at hwords
  rw [hwords]
  rfl

/-! ## Words that are glued to others -/

/-- The characters of a text in front of its first blank. -/
def front (text : Text) : Text := text.takeWhile fun c => !isBlank c

/-- There is no blank in the front of a text. -/
theorem not_isBlank_of_mem_front {text : Text} {c : Char} (h : c ∈ front text) :
    isBlank c = false := by
  simpa using List.all_eq_true.1 List.all_takeWhile c h

/-- The front of a text takes in the characters without blanks it starts with. -/
theorem front_append {word : Text} (h : ∀ c ∈ word, isBlank c = false) (rest : Text) :
    front (word ++ rest) = word ++ front rest :=
  List.takeWhile_append_of_pos (by simpa using h)

/-- A text that starts with a blank has an empty front. -/
theorem front_cons_blank {c : Char} (h : isBlank c = true) (rest : Text) :
    front (c :: rest) = [] := by
  simp [front, h]

/-- Behind the front of a text no word goes on. -/
theorem exists_front_append (text : Text) :
    ∃ behind, text = front text ++ behind ∧ opensWord behind = false := by
  refine ⟨text.dropWhile fun c => !isBlank c, List.takeWhile_append_dropWhile.symm, ?_⟩
  cases hbehind : text.dropWhile fun c => !isBlank c with
  | nil => rfl
  | cons c behind =>
    have hne : (text.dropWhile fun c => !isBlank c) ≠ [] := by simp [hbehind]
    have hhead := List.head_dropWhile_not (fun c => !isBlank c) hne
    simpa [hbehind, opensWord] using hhead

/-- A word in front of a text is a piece of its own when it is one in front of the characters up to
the first blank. -/
theorem splitOperators_words_glued {word text : Text} (hword : IsWord word)
    (h : texts operators (word ++ front text) = word :: texts operators (front text)) :
    splitOperators operators (words (word ++ text)) =
      word :: splitOperators operators (words text) := by
  obtain ⟨behind, hbehind, hbreak⟩ := exists_front_append text
  have hglued : IsWord (word ++ front text) := by
    refine ⟨by simp [hword.1], ?_⟩
    intro c hc
    rcases List.mem_append.1 hc with hc | hc
    · exact hword.2 c hc
    · exact not_isBlank_of_mem_front hc
  have hrest : splitOperators operators (words text) =
      texts operators (front text) ++ splitOperators operators (words behind) := by
    by_cases hnil : front text = []
    · rw [hnil, List.nil_append] at hbehind
      rw [hnil, texts_nil, List.nil_append, ← hbehind]
    · have hfront : IsWord (front text) := ⟨hnil, fun c hc => not_isBlank_of_mem_front hc⟩
      rw [← splitOperators_cons, ← words_isWord_append hfront hbreak, ← hbehind]
  calc splitOperators operators (words (word ++ text))
      = splitOperators operators (words (word ++ front text ++ behind)) := by
        rw [List.append_assoc, ← hbehind]
    _ = texts operators (word ++ front text) ++ splitOperators operators (words behind) := by
        rw [words_isWord_append hglued hbreak, splitOperators_cons]
    _ = word :: splitOperators operators (words text) := by
        rw [h, hrest, List.cons_append]

end TypedVars.Text
