import TypedVars.Text.Piece

/-!
# The division of a token

The division of a token is described without the recursion that computes it: plain stretches that
no operator breaks, with operators between them. Every token has exactly one division, so a
description of the pieces of a token is as good as the computation. A stretch is judged with what
stands before and after it in its token, because a sign depends on both sides.
-/

set_option autoImplicit false

namespace TypedVars.Text

variable {operators : List Text}

/-! ## Operators at a position -/

/-- The operator at a position is on the list, is not empty, opens the rest of the token and is no
sign there. -/
theorem spec_of_operatorAt? {reversed text symbol : Text}
    (h : operatorAt? operators reversed text = some symbol) :
    symbol ∈ operators ∧ symbol ≠ [] ∧ ∃ rest, text = symbol ++ rest ∧
      isSign symbol reversed rest = false := by
  obtain ⟨hfirst, hsign⟩ := Option.filter_eq_some_iff.1 h
  have hopens := List.find?_some hfirst
  simp only [Bool.and_eq_true, Bool.not_eq_true', List.isEmpty_eq_false_iff,
    List.isPrefixOf_iff_prefix] at hopens
  obtain ⟨hne, rest, rfl⟩ := hopens
  refine ⟨List.mem_of_find?_eq_some hfirst, hne, rest, rfl, ?_⟩
  simpa using hsign

/-- No operator stands at a position where none of the list opens the rest of the token. -/
theorem operatorAt?_eq_none {reversed text : Text}
    (h : ∀ symbol ∈ operators, symbol ≠ [] → ¬ symbol <+: text) :
    operatorAt? operators reversed text = none := by
  have hfirst : firstOperator? operators text = none := by
    apply List.find?_eq_none.2
    intro symbol hmem
    rw [Bool.and_eq_true, List.isPrefixOf_iff_prefix, Bool.not_eq_true',
      List.isEmpty_eq_false_iff, not_and]
    exact h symbol hmem
  rw [operatorAt?, hfirst, Option.filter_none]

/-! ## Stretches without operators -/

/-- No operator stands at any position of a text, which is read after the characters of `reversed`,
last first, and before those of `following`. -/
def Unbroken (operators : List Text) : (reversed text following : Text) → Prop
  | _, [], _ => True
  | reversed, c :: text, following =>
    operatorAt? operators reversed (c :: text ++ following) = none ∧
      Unbroken operators (c :: reversed) text following

/-- A stretch of two parts is unbroken when each part is, beside the other. -/
theorem unbroken_append {reversed left right following : Text} :
    Unbroken operators reversed (left ++ right) following ↔
      Unbroken operators reversed left (right ++ following) ∧
        Unbroken operators (left.reverse ++ reversed) right following := by
  induction left generalizing reversed with
  | nil => simp [Unbroken]
  | cons c left ih =>
    simp only [List.cons_append, Unbroken, ih, and_assoc, List.append_assoc, List.reverse_cons,
      List.nil_append]

/-- A text in which no operator of the list occurs as a whole or across its end is unbroken. -/
theorem unbroken_of_forall_not_prefix {reversed text following : Text}
    (h : ∀ symbol ∈ operators, ∀ suffix, suffix <:+ text → suffix ≠ [] → symbol ≠ [] →
      ¬ symbol <+: suffix ++ following) :
    Unbroken operators reversed text following := by
  induction text generalizing reversed with
  | nil => trivial
  | cons c text ih =>
    constructor
    · apply operatorAt?_eq_none
      intro symbol hmem hne
      exact h symbol hmem (c :: text) (List.suffix_refl _) (by simp) hne
    · apply ih
      intro symbol hmem suffix hsuffix
      exact h symbol hmem suffix (hsuffix.trans (List.suffix_cons c text))

/-- The plain piece that is open takes in an unbroken stretch. -/
theorem piecesAfter_unbroken {reversed text following : Text}
    (h : Unbroken operators reversed text following) :
    piecesAfter operators reversed (text ++ following) =
      piecesAfter operators (text.reverse ++ reversed) following := by
  induction text generalizing reversed with
  | nil => rfl
  | cons c text ih =>
    obtain ⟨hnone, htext⟩ := h
    rw [List.cons_append] at hnone
    rw [List.cons_append, piecesAfter, hnone]
    simpa using ih htext

/-- The plain piece that is open ends at an operator. -/
theorem piecesAfter_operator {reversed symbol rest : Text}
    (h : operatorAt? operators reversed (symbol ++ rest) = some symbol) :
    piecesAfter operators reversed (symbol ++ rest) =
      closePlain reversed (.operator symbol :: piecesAfter operators [] rest) := by
  obtain ⟨-, hne, -⟩ := spec_of_operatorAt? h
  cases symbol with
  | nil => exact absurd rfl hne
  | cons c symbol =>
    rw [List.cons_append] at h
    rw [List.cons_append, piecesAfter, h]
    simp

/-! ## Divisions -/

/-- The divisions of a token at operators. A plain piece ends with the token or at an operator, so
that no two of them are neighbours. -/
inductive Division (operators : List Text) : Text → List Piece → Prop
  /-- Nothing has no pieces. -/
  | empty : Division operators [] []
  /-- A token in which no operator stands is one plain piece. -/
  | plain {text : Text} (nonempty : text ≠ []) (unbroken : Unbroken operators [] text []) :
      Division operators text [.plain text]
  /-- An operator opens the token. -/
  | operator {symbol rest : Text} {others : List Piece}
      (found : operatorAt? operators [] (symbol ++ rest) = some symbol)
      (remaining : Division operators rest others) :
      Division operators (symbol ++ rest) (.operator symbol :: others)
  /-- A plain piece opens the token and an operator ends the piece. -/
  | plainOperator {text symbol rest : Text} {others : List Piece} (nonempty : text ≠ [])
      (unbroken : Unbroken operators [] text (symbol ++ rest))
      (found : operatorAt? operators text.reverse (symbol ++ rest) = some symbol)
      (remaining : Division operators rest others) :
      Division operators (text ++ (symbol ++ rest)) (.plain text :: .operator symbol :: others)

/-- The computed pieces, with an unbroken open piece in front, divide the whole. -/
theorem division_piecesAfter {reversed text : Text}
    (h : Unbroken operators [] reversed.reverse text) :
    Division operators (reversed.reverse ++ text) (piecesAfter operators reversed text) := by
  fun_induction piecesAfter operators reversed text with
  | case1 reversed =>
    rw [List.append_nil]
    unfold closePlain
    split
    · next hempty => simpa [List.isEmpty_iff.1 hempty] using Division.empty
    · next hempty => exact .plain (by simpa using hempty) h
  | case2 reversed c rest symbol hsymbol ih =>
    obtain ⟨-, hne, tail, htail, -⟩ := spec_of_operatorAt? hsymbol
    have hdrop : rest.drop (symbol.length - 1) = tail := by
      cases symbol with
      | nil => exact absurd rfl hne
      | cons a symbol => simp [(List.cons.inj htail).2]
    rw [hdrop] at ih ⊢
    rw [htail] at h hsymbol ⊢
    have hremaining := ih (by simp [Unbroken])
    unfold closePlain
    split
    · next hempty =>
      obtain rfl := List.isEmpty_iff.1 hempty
      exact .operator hsymbol hremaining
    · next hempty =>
      exact .plainOperator (by simpa using hempty) h (by simpa using hsymbol) hremaining
  | case3 reversed c rest hnone ih =>
    have hopen : Unbroken operators [] (c :: reversed).reverse rest := by
      rw [List.reverse_cons, unbroken_append]
      exact ⟨h, by simpa [Unbroken] using hnone⟩
    simpa using ih hopen

/-- The pieces of a token are a division of it. -/
theorem division_pieces (operators : List Text) (token : Text) :
    Division operators token (pieces operators token) :=
  @division_piecesAfter operators [] token trivial

/-- A token has no other division. -/
theorem Division.pieces_eq {token : Text} {all : List Piece} (h : Division operators token all) :
    pieces operators token = all := by
  rw [pieces]
  induction h with
  | empty => simp [piecesAfter, closePlain]
  | @plain text nonempty unbroken =>
    have hpieces := piecesAfter_unbroken unbroken
    rw [List.append_nil, List.append_nil] at hpieces
    simp [hpieces, piecesAfter, closePlain, nonempty]
  | operator found _ ih =>
    rw [piecesAfter_operator found, ih, closePlain, List.isEmpty_nil, if_pos rfl]
  | plainOperator nonempty unbroken found _ ih =>
    rw [piecesAfter_unbroken unbroken, List.append_nil, piecesAfter_operator found, ih]
    simp [closePlain, nonempty]

/-- The pieces of a token are its only division. -/
theorem division_iff {token : Text} {all : List Piece} :
    Division operators token all ↔ pieces operators token = all :=
  ⟨Division.pieces_eq, fun h => h ▸ division_pieces operators token⟩

/-! ## Single pieces -/

/-- What a piece is by itself: an operator of the list, or a stretch that was unbroken in its
token. -/
def Piece.Fits (operators : List Text) : Piece → Prop
  | .plain text => text ≠ [] ∧ ∃ following, Unbroken operators [] text following
  | .operator symbol => symbol ≠ [] ∧ symbol ∈ operators

/-- Every piece of a division is an operator or an unbroken stretch. -/
theorem Division.fits {token : Text} {all : List Piece} (h : Division operators token all) :
    ∀ piece ∈ all, piece.Fits operators := by
  induction h with
  | empty => simp
  | plain nonempty unbroken => exact List.forall_mem_singleton.2 ⟨nonempty, _, unbroken⟩
  | operator found _ ih =>
    obtain ⟨hmem, hne, -⟩ := spec_of_operatorAt? found
    exact List.forall_mem_cons.2 ⟨⟨hne, hmem⟩, ih⟩
  | plainOperator nonempty unbroken found _ ih =>
    obtain ⟨hmem, hne, -⟩ := spec_of_operatorAt? found
    exact List.forall_mem_cons.2 ⟨⟨nonempty, _, unbroken⟩, List.forall_mem_cons.2 ⟨⟨hne, hmem⟩, ih⟩⟩

/-- The pieces of a division make up the token. -/
theorem Division.flatMap_text {token : Text} {all : List Piece} (h : Division operators token all) :
    all.flatMap Piece.text = token := by
  induction h with
  | empty => rfl
  | plain _ _ => simp [Piece.text]
  | operator _ _ ih => simp [Piece.text, ih]
  | plainOperator _ _ _ _ ih => simp [Piece.text, ih]

/-! ## The texts of the pieces -/

/-- The texts that a token is divided into. -/
def texts (operators : List Text) (token : Text) : List Text :=
  (pieces operators token).map Piece.text

/-- The empty text has no pieces. -/
@[simp] theorem texts_nil : texts operators [] = [] := by
  rw [texts, Division.empty.pieces_eq, List.map_nil]

/-- An operator that is found at the start is the first piece. -/
theorem texts_operator {symbol rest : Text}
    (found : operatorAt? operators [] (symbol ++ rest) = some symbol) :
    texts operators (symbol ++ rest) = symbol :: texts operators rest := by
  rw [texts, (Division.operator found (division_pieces operators rest)).pieces_eq]
  rfl

/-- A plain stretch and the operator behind it are divided off the front of a token. -/
theorem texts_plain_operator {text symbol rest : Text} (nonempty : text ≠ [])
    (unbroken : Unbroken operators [] text (symbol ++ rest))
    (found : operatorAt? operators text.reverse (symbol ++ rest) = some symbol) :
    texts operators (text ++ (symbol ++ rest)) = text :: symbol :: texts operators rest := by
  have hdivision := Division.plainOperator nonempty unbroken found (division_pieces operators rest)
  rw [texts, hdivision.pieces_eq]
  rfl

/-- The pieces of a token make it up again. -/
theorem flatten_texts (token : Text) : (texts operators token).flatten = token := by
  rw [texts, ← List.flatMap_def]
  exact (division_pieces operators token).flatMap_text

/-- Tokens are split one by one. -/
theorem splitOperators_cons (token : Text) (others : List Text) :
    splitOperators operators (token :: others) =
      texts operators token ++ splitOperators operators others := rfl

/-- A text that stays whole when it is divided. -/
def Whole (operators : List Text) (text : Text) : Prop := texts operators text = [text]

/-- A text that no operator breaks stays whole. -/
theorem whole_of_unbroken {text : Text} (hne : text ≠ []) (h : Unbroken operators [] text []) :
    Whole operators text := by
  rw [Whole, texts, (Division.plain hne h).pieces_eq]
  rfl

/-- An operator that is no sign by itself stays whole. -/
theorem whole_of_operatorAt? {symbol : Text} (h : operatorAt? operators [] symbol = some symbol) :
    Whole operators symbol := by
  have found : operatorAt? operators [] (symbol ++ []) = some symbol := by rwa [List.append_nil]
  have htexts := texts_operator found
  rwa [List.append_nil, texts_nil] at htexts

/-- Tokens that stay whole are left as they are. -/
theorem splitOperators_of_whole {tokens : List Text} (h : ∀ token ∈ tokens, Whole operators token) :
    splitOperators operators tokens = tokens := by
  induction tokens with
  | nil => rfl
  | cons token others ih =>
    have htoken : texts operators token = [token] := h token (by simp)
    have hothers := ih fun other hother => h other (List.mem_cons_of_mem _ hother)
    rw [splitOperators_cons, htoken, hothers, List.singleton_append]

end TypedVars.Text
