import TypedVars.Proofs.Condition.RoundTrip

/-!
# Written expressions nest to the right

The written form of an expression shows its chain of literals and operators and drops its shape.
Whatever shape an expression has, its written form is that of its chain, and it is read back as the
only expression with this chain that nests to the right.
-/

set_option autoImplicit false

namespace TypedVars.Condition

namespace Chain

/-- Puts an operator between two chains. -/
def join : Chain → Operator → Chain → Chain
  | single literal, operator, behind => link literal operator behind
  | link literal next rest, operator, behind => link literal next (rest.join operator behind)

/-- Joined chains have the literals of both. -/
theorem literals_join (front : Chain) (operator : Operator) (behind : Chain) :
    (front.join operator behind).literals = front.literals ++ behind.literals := by
  induction front with
  | single literal => rfl
  | link literal next rest ih => rw [join, literals, ih, literals, List.cons_append]

/-- A chain is printed as its first literal, its first operator and the rest. -/
theorem text_link (literal : Literal) (operator : Operator) (rest : Chain) :
    (link literal operator rest).text =
      literal.text ++ ' ' :: operator.symbol ++ ' ' :: rest.text := by
  rw [← text_toExpression, ← text_toExpression]
  rfl

/-- Joined chains are printed one after the other, with the operator in between. -/
theorem text_join (front : Chain) (operator : Operator) (behind : Chain) :
    (front.join operator behind).text =
      front.text ++ ' ' :: operator.symbol ++ ' ' :: behind.text := by
  induction front with
  | single literal => exact text_link literal operator behind
  | link literal next rest ih =>
    rw [join, text_link, ih, text_link]
    simp

end Chain

namespace Expression

/-- The literals and operators of an expression in the order in which they are written. -/
def chain : Expression → Chain
  | literal value => .single value
  | binary left operator right => left.chain.join operator right.chain

/-- The chain of a tree has the literals of the tree. -/
theorem literals_chain (whole : Expression) : whole.chain.literals = whole.literals := by
  induction whole with
  | literal value => rfl
  | binary left operator right ihleft ihright =>
    rw [chain, Chain.literals_join, ihleft, ihright, literals]

/-- The written form of an expression is that of its chain. -/
theorem text_chain (whole : Expression) : whole.chain.text = whole.text := by
  induction whole with
  | literal value => rfl
  | binary left operator right ihleft ihright =>
    rw [chain, Chain.text_join, ihleft, ihright, text]

/-- The chain of the tree of a chain is that chain. -/
theorem chain_toExpression (chain : Chain) : chain.toExpression.chain = chain := by
  induction chain with
  | single value => rfl
  | link value operator rest ih =>
    rw [Chain.toExpression, Expression.chain, ih]
    rfl

/-- One expression that nests to the right has a given chain. -/
theorem rightNested_and_chain_eq_iff {whole : Expression} {chain : Chain} :
    whole.RightNested ∧ whole.chain = chain ↔ whole = chain.toExpression := by
  constructor
  · rintro ⟨hnested, rfl⟩
    obtain ⟨chain, rfl⟩ := whole.rightNested_iff.1 hnested
    rw [chain_toExpression]
  · rintro rfl
    exact ⟨(rightNested_iff _).2 ⟨chain, rfl⟩, chain_toExpression chain⟩

/-- The written form of an expression of which the strings stand for themselves is read back as the
expression with the same chain that nests to the right, and there is no other one. -/
theorem eq_parse_text_iff (whole : Expression)
    (h : ∀ string, .string string ∈ whole.literals → IsStringToken string) (other : Expression) :
    other.RightNested ∧ other.chain = whole.chain ↔ other = parse whole.text := by
  have hreadable : ∀ literal ∈ whole.chain.literals, literal.Readable := by
    rw [literals_chain]
    intro literal hliteral
    cases literal with
    | boolean value => trivial
    | integer value => trivial
    | string value => exact h value hliteral
  rw [rightNested_and_chain_eq_iff, ← text_chain, Chain.parse_text hreadable]

/-- An expression that nests to the left, with a symbol for a string, is read back nested to the
right. -/
theorem eq_parse_text_iff_left_nested :
    let whole := binary (binary (.literal (.integer 1)) (.comparison .less)
      (.literal (.string "<=".toList))) (.connective .or) (.literal (.boolean true))
    (∀ string, .string string ∈ whole.literals → IsStringToken string) ∧
      parse whole.text = .binary (.literal (.integer 1)) (.comparison .less)
        (.binary (.literal (.string "<=".toList)) (.connective .or) (.literal (.boolean true))) := by
  intro whole
  have h : ∀ string, .string string ∈ whole.literals → IsStringToken string := by
    intro string hstring
    obtain rfl : string = "<=".toList := by simpa [whole, literals] using hstring
    exact ⟨by decide, by decide, by decide, by decide, .inl (by decide)⟩
  refine ⟨h, ((eq_parse_text_iff whole h _).1 ⟨?_, ?_⟩).symm⟩
  · exact ⟨⟨_, rfl⟩, ⟨_, rfl⟩, trivial⟩
  · rfl

end Expression

end TypedVars.Condition
