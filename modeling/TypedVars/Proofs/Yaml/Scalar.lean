import TypedVars.Proofs.Text.Printable
import TypedVars.Yaml.Scalar

/-!
# Strings between quotation marks

A printable string in JSON is read as a double-quoted scalar of YAML with the same text: spaces are
kept, as nothing breaks the line, and the two escapes mean the same in both.
-/

set_option autoImplicit false

namespace TypedVars.Yaml

/-- Moving in two steps is moving once. -/
theorem Cursor.move_move (cursor : Cursor) (m n : Nat) :
    (cursor.move m).move n = cursor.move (m + n) := by
  simp only [Cursor.move, List.take_add, List.drop_drop, Text.encodedLength_append, Nat.add_assoc]

/-- Moving over a text leaves the text behind it. -/
theorem Cursor.rest_move {cursor : Cursor} {text rest : Text} (h : cursor.rest = text ++ rest) :
    (cursor.move text.length).rest = rest := by
  rw [Cursor.move, h, List.drop_left]

/-- A character of a quoted text that is no line break is a space, the end, an escape or itself. -/
theorem doubleQuotedFrom_of_rest {cursor : Cursor} {c : Char} {rest : Text}
    (h : cursor.rest = c :: rest) (hbreak : isBreak c = false) (hcolumn : 0 < cursor.column)
    (reversed : Text) (gap : Gap) :
    doubleQuotedFrom reversed gap cursor =
      if isSpace c then doubleQuotedFrom reversed (gap.addSpace c) (cursor.move 1)
      else if c = '"' then some ((gap.folded.reverse ++ reversed).reverse, cursor.move 1)
      else if c = '\\' then
        if rest ≠ [] ∧ atLineEnd rest = true then
          doubleQuotedFrom (gap.folded.reverse ++ reversed) Gap.escapedBreak
            (cursor.move 1).nextLine
        else (escape? rest).bind fun decoded =>
          doubleQuotedFrom (decoded.1 :: (gap.folded.reverse ++ reversed)) Gap.none
            (cursor.move (decoded.2 + 1))
      else doubleQuotedFrom (c :: (gap.folded.reverse ++ reversed)) Gap.none (cursor.move 1) := by
  obtain ⟨text, index, line, column⟩ := cursor
  obtain rfl : text = c :: rest := h
  have hmark : Cursor.atDocumentMark ⟨c :: rest, index, line, column⟩ = false := by
    have hne : column ≠ 0 := by
      intro hzero
      simp [hzero] at hcolumn
    simp [Cursor.atDocumentMark, hne]
  rw [doubleQuotedFrom]
  simp only [hbreak, hmark, Bool.false_eq_true, if_false, beq_iff_eq]
  split
  · rfl
  · split
    · rfl
    · split
      · split
        · rfl
        · cases escape? rest <;> rfl
      · rfl

/-- The written form of one character is read as that character. -/
theorem exists_doubleQuotedFrom_escape {c : Char} (hlow : 0x20 ≤ c.toNat) (hhigh : c.toNat ≤ 0x7E)
    {cursor : Cursor} {later : Text} (hrest : cursor.rest = Json.escape c ++ later)
    (hcolumn : 0 < cursor.column) (reversed spaces : Text) :
    ∃ reversed' spaces', reversed'.reverse ++ spaces' = reversed.reverse ++ spaces ++ [c] ∧
      doubleQuotedFrom reversed ⟨spaces, false, [], []⟩ cursor =
        doubleQuotedFrom reversed' ⟨spaces', false, [], []⟩
          (cursor.move (Json.escape c).length) := by
  have hescaped (d : Char) (hslash : cursor.rest = '\\' :: d :: later) (hd : isBreak d = false)
      (hread : escape? (d :: later) = some (d, 1)) :
      doubleQuotedFrom reversed ⟨spaces, false, [], []⟩ cursor =
        doubleQuotedFrom (d :: (spaces.reverse ++ reversed)) Gap.none (cursor.move 2) := by
    rw [doubleQuotedFrom_of_rest hslash (by decide) hcolumn, hread]
    simp [isSpace, atLineEnd, hd, Gap.folded]
  by_cases hquote : c = '"'
  · subst hquote
    exact ⟨_, [], by simp, hescaped '"' hrest (by decide) rfl⟩
  by_cases hslash : c = '\\'
  · subst hslash
    exact ⟨_, [], by simp, hescaped '\\' hrest (by decide) rfl⟩
  rw [Json.escape_of_plain hlow hquote hslash] at hrest ⊢
  have hbreak := isBreak_of_printable hlow hhigh
  rw [doubleQuotedFrom_of_rest hrest hbreak hcolumn, if_neg hquote, if_neg hslash]
  by_cases hspace : isSpace c = true
  · exact ⟨reversed, spaces ++ [c], by simp, by simp [hspace, Gap.addSpace]⟩
  · exact ⟨c :: (spaces.reverse ++ reversed), [], by simp, by simp [hspace, Gap.folded, Gap.none]⟩

/-- A printable string is read back up to its quotation mark. -/
theorem doubleQuotedFrom_escapes {text rest : Text} (h : text.Printable) {cursor : Cursor}
    (hrest : cursor.rest = text.flatMap Json.escape ++ '"' :: rest) (hcolumn : 0 < cursor.column)
    (reversed spaces : Text) :
    doubleQuotedFrom reversed ⟨spaces, false, [], []⟩ cursor =
      some (reversed.reverse ++ spaces ++ text,
        cursor.move ((text.flatMap Json.escape).length + 1)) := by
  induction text generalizing reversed spaces cursor with
  | nil =>
    rw [doubleQuotedFrom_of_rest hrest (by decide) hcolumn]
    simp [isSpace, Gap.folded]
  | cons c text ih =>
    obtain ⟨⟨hlow, hhigh⟩, htext⟩ := Text.printable_cons.1 h
    rw [List.flatMap_cons, List.append_assoc] at hrest
    obtain ⟨reversed', spaces', heq, hstep⟩ :=
      exists_doubleQuotedFrom_escape hlow hhigh hrest hcolumn reversed spaces
    have hmoved := Cursor.rest_move hrest
    rw [hstep, ih htext hmoved (Nat.lt_of_lt_of_le hcolumn (Nat.le_add_right ..)), heq,
      Cursor.move_move, List.flatMap_cons, List.length_append, List.append_assoc,
      List.singleton_append, Nat.add_assoc]

/-- A printable string is read back, and the reading ends behind it. -/
theorem doubleQuotedFrom_string {text rest : Text} (h : text.Printable) {cursor : Cursor}
    (hrest : cursor.rest = Json.string text ++ rest) :
    doubleQuotedFrom [] Gap.none (cursor.move 1) =
      some (text, cursor.move (Json.string text).length) := by
  have hsplit : cursor.rest = ['"'] ++ (text.flatMap Json.escape ++ '"' :: rest) := by
    simp [hrest, Json.string]
  have hlength : (Json.string text).length = 1 + ((text.flatMap Json.escape).length + 1) := by
    simp only [Json.string, List.length_append, List.length_cons, List.length_nil]
    omega
  have hread := doubleQuotedFrom_escapes h (Cursor.rest_move hsplit) (Nat.succ_pos _) [] []
  rwa [List.length_singleton, Cursor.move_move, ← hlength] at hread

end TypedVars.Yaml
