import TypedVars.Proofs.Condition.RoundTrip
import TypedVars.Proofs.Text.Spacing

/-!
# Glued and spaced conditions

Words that have none of the characters of operators may be glued to the operators between them, or
blanks may stand between them. Both are read alike, as the chain of the classified words and the
operators. What is glued is cut off the front of a text piece by piece: a word ends where a symbol
starts, and a symbol is the first that matches because no character of an operator follows it.
-/

set_option autoImplicit false

namespace TypedVars.Condition

open Text (Blanks IsWord Spaced Unbroken front isBlank texts)

/-! ## Words and symbols -/

/-- A word without any of the characters of operators. -/
def IsPlainWord (word : Text) : Prop := IsWord word ∧ ∀ c ∈ word, c ∉ operatorCharacters

instance (word : Text) : Decidable (IsPlainWord word) :=
  decidable_of_iff
    ((decide (IsWord word) && word.all fun c => !operatorCharacters.contains c) = true)
    (by simp [IsPlainWord])

/-- No character of an operator opens a text. -/
def OpensPlain (text : Text) : Prop := ∀ c rest, text = c :: rest → c ∉ operatorCharacters

/-- A plain opening stays one when the text is cut at its first blank. -/
theorem OpensPlain.front {text : Text} (h : OpensPlain text) : OpensPlain (front text) := by
  obtain ⟨behind, hbehind, -⟩ := Text.exists_front_append text
  intro c rest hfront
  rw [hfront, List.cons_append] at hbehind
  exact h c (rest ++ behind) hbehind

/-- No blank is part of an operator. -/
theorem not_mem_operatorCharacters_of_isBlank {c : Char} (h : isBlank c = true) :
    c ∉ operatorCharacters := by
  intro hc
  simp only [operatorCharacters, List.mem_cons, List.not_mem_nil, or_false] at hc
  rcases hc with rfl | rfl | rfl | rfl | rfl | rfl <;> exact absurd h (by decide)

/-- Parts of which the first is a plain word make up a text that opens with none of the characters
of operators. -/
theorem opensPlain_of_spaced {first : Text} {others : List Text} {text : Text}
    (hfirst : IsPlainWord first) (h : Spaced (first :: others) text) : OpensPlain text := by
  obtain ⟨gap, rest, rfl, hgap, -⟩ := h
  intro c tail hcons
  cases gap with
  | nil =>
    obtain ⟨a, word, rfl⟩ := List.exists_cons_of_ne_nil hfirst.1.1
    obtain ⟨rfl, -⟩ := List.cons.inj hcons
    exact hfirst.2 a (by simp)
  | cons a gap =>
    obtain ⟨rfl, -⟩ := List.cons.inj hcons
    exact not_mem_operatorCharacters_of_isBlank (hgap a (by simp))

/-- A symbol is the operator that stands at its place, also behind other text and in front of text
that could not make it longer. -/
theorem Operator.operatorAt?_symbol_append (operator : Operator) (reversed : Text)
    {rest : Text} (h : OpensPlain rest) :
    Text.operatorAt? symbols reversed (operator.symbol ++ rest) = some operator.symbol := by
  have hfirst : Text.firstOperator? symbols (operator.symbol ++ rest) = some operator.symbol := by
    cases rest with
    | nil => rcases operator with which | which <;> cases which <;> rfl
    | cons c rest =>
      -- only `>` and `<` open another symbol, of which the second character is `=`
      have hc : '=' ≠ c := by
        rintro rfl
        exact h '=' rest rfl (by decide)
      rcases operator with which | which <;> cases which <;>
        simp [Text.firstOperator?, symbols, all, symbol, hc]
  rw [Text.operatorAt?, hfirst, Option.filter_some, isSign_symbol]
  rfl

/-- No operator breaks a plain word, whatever stands around it. -/
theorem IsPlainWord.unbroken {word : Text} (h : IsPlainWord word) (reversed following : Text) :
    Unbroken Operator.symbols reversed word following := by
  apply Text.unbroken_of_forall_not_prefix
  intro symbol hmem suffix hsuffix hne _ hopens
  obtain ⟨operator, -, rfl⟩ := List.mem_map.1 hmem
  obtain ⟨a, tail, hsymbol, ha⟩ := operator.exists_symbol_eq_cons
  obtain ⟨c, suffix, rfl⟩ := List.exists_cons_of_ne_nil hne
  rw [hsymbol, List.cons_append, List.cons_prefix_cons] at hopens
  obtain ⟨rfl, -⟩ := hopens
  exact h.2 a (hsuffix.subset (by simp)) ha

/-! ## Tokens of glued and spaced parts -/

/-- Blanks in front of a text change none of its tokens. -/
theorem tokens_blanks_append {gap : Text} (h : Blanks gap) (rest : Text) :
    tokens (gap ++ rest) = tokens rest := by
  rw [tokens, Text.words_blanks_append h, tokens]

/-- A symbol is cut off the front of a text that could not make it longer. -/
theorem tokens_symbol_append (operator : Operator) {rest : Text} (h : OpensPlain rest) :
    tokens (operator.symbol ++ rest) = operator.symbol :: tokens rest :=
  Text.splitOperators_words_glued operator.isWord_symbol
    (Text.texts_operator (operator.operatorAt?_symbol_append [] h.front))

/-- A plain word is cut off the front of blanks and a symbol. -/
theorem tokens_word_append {word gap rest : Text} (hword : IsPlainWord word) (hgap : Blanks gap)
    (operator : Operator) (h : OpensPlain rest) :
    tokens (word ++ (gap ++ (operator.symbol ++ rest))) =
      word :: tokens (gap ++ (operator.symbol ++ rest)) := by
  apply Text.splitOperators_words_glued hword.1
  cases gap with
  | nil =>
    have hglued := operator.operatorAt?_symbol_append word.reverse h.front
    have hfirst := operator.operatorAt?_symbol_append [] h.front
    rw [List.nil_append, Text.front_append operator.isWord_symbol.2,
      Text.texts_plain_operator hword.1.1 (hword.unbroken _ _) hglued, Text.texts_operator hfirst]
  | cons c gap =>
    rw [List.cons_append, Text.front_cons_blank (hgap c (by simp)), List.append_nil, Text.texts_nil]
    exact Text.whole_of_unbroken hword.1.1 (hword.unbroken _ _)

/-- A word, and then operators with the words behind them. -/
def linked (first : Text) (links : List (Operator × Text)) : List Text :=
  first :: links.flatMap fun link => [link.1.symbol, link.2]

/-- The tokens of a spaced chain are its literals and operators in order. -/
theorem tokens_of_spaced {first : Text} {links : List (Operator × Text)} {text : Text}
    (hfirst : IsPlainWord first) (hlinks : ∀ link ∈ links, IsPlainWord link.2)
    (h : Spaced (linked first links) text) : tokens text = linked first links := by
  -- each step cuts a word and the operator behind it off the front of the text
  induction links generalizing first text with
  | nil =>
    obtain ⟨gap, rest, rfl, hgap, hrest⟩ := h
    have hwhole := Text.whole_of_unbroken hfirst.1.1 (hfirst.unbroken [] [])
    rw [tokens, Text.splitOperators_words_append hgap hfirst.1 (Blanks.opensWord_eq hrest),
      hwhole, Text.splitOperators_words_blanks hrest]
    rfl
  | cons link links ih =>
    obtain ⟨gap, _, rfl, hgap, behind, rest, rfl, hbehind, hrest⟩ := h
    obtain ⟨hsecond, hothers⟩ := List.forall_mem_cons.1 hlinks
    have hopens := opensPlain_of_spaced hsecond hrest
    rw [tokens_blanks_append hgap, tokens_word_append hfirst hbehind link.1 hopens,
      tokens_blanks_append hbehind, tokens_symbol_append link.1 hopens, ih hsecond hothers hrest]
    rfl

/-- The chain of classified words and the operators between them. -/
def Chain.ofLinked : Text → List (Operator × Text) → Chain
  | first, [] => .single (.ofToken first)
  | first, (operator, word) :: links => .link (.ofToken first) operator (ofLinked word links)

/-- Linked tokens are parsed as the chain that they spell, to the end. -/
theorem ofTokens_linked (first : Text) (links : List (Operator × Text)) :
    Expression.ofTokens (linked first links) = ((Chain.ofLinked first links).toExpression, []) := by
  induction links generalizing first with
  | nil => rfl
  | cons link links ih =>
    have hlinked : linked first (link :: links) =
        first :: link.1.symbol :: linked link.2 links := rfl
    rw [hlinked, Expression.ofTokens, Operator.ofSymbol?_symbol]
    simp only [ih, Chain.ofLinked, Chain.toExpression]

/-- Plain words with operators between them are read as their chain, nested to the right, whichever
blanks stand at the ends and on the sides of the operators. -/
theorem parse_of_spaced (first : Text) (links : List (Operator × Text)) (text : Text)
    (hfirst : IsPlainWord first) (hlinks : ∀ link ∈ links, IsPlainWord link.2)
    (h : Spaced (linked first links) text) :
    parse text = (Chain.ofLinked first links).toExpression := by
  rw [parse, tokens_of_spaced hfirst hlinks h, ofTokens_linked]

/-- Blanks on some sides of the operators only, one of them wide, and a word that holds a sign. -/
theorem parse_of_spaced_mixed :
    let links := [(.comparison .lessEqual, "-1".toList), (.connective .and, "true".toList),
      (.comparison .less, "é".toList)]
    let text := " x<=-1&& true\u3000<é".toList
    IsPlainWord "x".toList ∧ (∀ link ∈ links, IsPlainWord link.2) ∧
      Spaced (linked "x".toList links) text ∧
      parse text = .binary (.literal (.string "x".toList)) (.comparison .lessEqual)
        (.binary (.literal (.integer (-1))) (.connective .and)
          (.binary (.literal (.boolean true)) (.comparison .less)
            (.literal (.string "é".toList)))) := by
  intro links text
  have hfirst : IsPlainWord "x".toList := by decide
  have hlinks : ∀ link ∈ links, IsPlainWord link.2 := by decide
  have hspaced : Spaced (linked "x".toList links) text := by
    refine ⟨" ".toList, _, rfl, by decide, [], _, rfl, by decide, [], _, rfl, by decide, ?_⟩
    refine ⟨[], _, rfl, by decide, " ".toList, _, rfl, by decide, ?_⟩
    exact ⟨"\u3000".toList, _, rfl, by decide, [], [], rfl, by decide,
      by simp [Spaced, Blanks]⟩
  exact ⟨hfirst, hlinks, hspaced, parse_of_spaced _ links text hfirst hlinks hspaced⟩

end TypedVars.Condition
