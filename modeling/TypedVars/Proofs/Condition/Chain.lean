import TypedVars.Condition.Reading

/-!
# Chains

A condition without brackets is written as a chain: literals with operators between them. A chain
nests to the right in one way, and these are the expressions that reading yields. The chain of a
list of pieces is found by place: literals stand at even places and operators at odd ones, up to the
first odd place without an operator.
-/

set_option autoImplicit false

namespace TypedVars.Condition

/-- Literals joined by operators, in the order in which they are written. -/
inductive Chain where
  /-- A literal alone. -/
  | single (literal : Literal)
  /-- A literal, the operator behind it and the chain behind that. -/
  | link (literal : Literal) (operator : Operator) (rest : Chain)
deriving DecidableEq, Repr

namespace Chain

/-- The literals of a chain, one more than it has operators. -/
def literals : Chain → List Literal
  | single literal => [literal]
  | link literal _ rest => literal :: rest.literals

/-- The operators of a chain. -/
def operators : Chain → List Operator
  | single _ => []
  | link _ operator rest => operator :: rest.operators

/-- The chain behind the first so many operators; the last literal stays. -/
def drop : Nat → Chain → Chain
  | 0, chain => chain
  | _ + 1, single literal => single literal
  | count + 1, link _ _ rest => drop count rest

/-- The texts that a chain is written with. -/
def pieces : Chain → List Text
  | single literal => [literal.text]
  | link literal operator rest => literal.text :: operator.symbol :: rest.pieces

/-- The written form of a chain: its pieces with single spaces between them. -/
def text (chain : Chain) : Text := Text.joinWith [' '] chain.pieces

/-- The expression that nests a chain to the right. -/
def toExpression : Chain → Expression
  | single literal => .literal literal
  | link literal operator rest => .binary (.literal literal) operator rest.toExpression

/-- A chain has a first piece. -/
theorem pieces_eq_cons (chain : Chain) : ∃ first others, chain.pieces = first :: others := by
  cases chain <;> exact ⟨_, _, rfl⟩

/-- The tree of a chain is printed as the chain is. -/
@[simp] theorem text_toExpression (chain : Chain) : chain.toExpression.text = chain.text := by
  rw [text]
  induction chain with
  | single literal => rfl
  | link literal operator rest ih =>
    obtain ⟨first, others, hpieces⟩ := rest.pieces_eq_cons
    rw [toExpression, Expression.text, ih, pieces, hpieces]
    simp [Text.joinWith, Expression.text]

/-! ## Chains by place -/

/-- The members of a list at its even places. -/
def evenPlaces {α : Type} : List α → List α
  | [] => []
  | [a] => [a]
  | a :: _ :: rest => a :: evenPlaces rest

/-- The members of a list at its odd places. -/
def oddPlaces {α : Type} : List α → List α
  | [] => []
  | [_] => []
  | _ :: b :: rest => b :: oddPlaces rest

/-- Puts operators between the literals of the first places. -/
def ofPlaces (literalAt : Nat → Literal) : List Operator → Chain
  | [] => single (literalAt 0)
  | operator :: others => link (literalAt 0) operator (ofPlaces (fun i => literalAt (i + 1)) others)

/-- The literal at a place: the classified piece, or `false` where no piece is. -/
def literalAt (pieces : List Text) (place : Nat) : Literal :=
  match (evenPlaces pieces)[place]? with
  | some piece => .ofToken piece
  | none => .boolean false

/-- The operators at the odd places, as long as symbols of operators stand there. -/
def leadingOperators (pieces : List Text) : List Operator :=
  ((oddPlaces pieces).takeWhile Operator.symbols.contains).filterMap Operator.ofSymbol?

/-- The chain that a list of pieces starts with. -/
def ofPieces (pieces : List Text) : Chain := ofPlaces (literalAt pieces) (leadingOperators pieces)

end Chain

/-- Only the symbols of operators are read as operators. -/
theorem Operator.contains_symbols_eq (text : Text) :
    Operator.symbols.contains text = (Operator.ofSymbol? text).isSome := by
  rw [Bool.eq_iff_iff, List.contains_iff_mem, Option.isSome_iff_exists]
  constructor
  · intro h
    obtain ⟨operator, -, rfl⟩ := List.mem_map.1 h
    exact ⟨operator, Operator.ofSymbol?_symbol operator⟩
  · rintro ⟨operator, h⟩
    rw [Operator.eq_symbol_of_ofSymbol? h]
    exact List.mem_map_of_mem (Operator.mem_all operator)

/-- Reading a list of pieces yields its chain, nested to the right. -/
theorem Expression.ofTokens_eq_toExpression (pieces : List Text) :
    (Expression.ofTokens pieces).1 = (Chain.ofPieces pieces).toExpression := by
  fun_induction Expression.ofTokens pieces with
  | case1 => rfl
  | case2 token => rfl
  | case3 token next after operator hoperator right remaining hafter ih =>
    have hleading : Chain.leadingOperators (token :: next :: after) =
        operator :: Chain.leadingOperators after := by
      rw [Chain.leadingOperators, Chain.oddPlaces, List.takeWhile_cons,
        Operator.contains_symbols_eq, hoperator, Option.isSome_some, if_pos rfl,
        List.filterMap_cons_some hoperator, Chain.leadingOperators]
    rw [hafter] at ih
    rw [Chain.ofPieces, hleading, Chain.ofPlaces, Chain.toExpression]
    exact congrArg (Expression.binary (.literal (.ofToken token)) operator) ih
  | case4 token next after hnone =>
    have hleading : Chain.leadingOperators (token :: next :: after) = [] := by
      rw [Chain.leadingOperators, Chain.oddPlaces, List.takeWhile_cons,
        Operator.contains_symbols_eq, hnone]
      rfl
    rw [Chain.ofPieces, hleading]
    rfl

/-- A condition in a text is the chain of its pieces, nested to the right. -/
theorem parse_eq_toExpression (text : Text) :
    parse text = (Chain.ofPieces (tokens text)).toExpression :=
  Expression.ofTokens_eq_toExpression (tokens text)

/-! ## Chains of expressions -/

namespace Expression

/-- The literals of an expression from left to right. -/
def literals : Expression → List Literal
  | literal value => [value]
  | binary left _ right => left.literals ++ right.literals

/-- An expression nests to the right when the left side of each of its operators is a literal. -/
def RightNested : Expression → Prop
  | literal _ => True
  | binary left _ right => (∃ value, left = literal value) ∧ right.RightNested

/-- The expressions that nest to the right are those of chains. -/
theorem rightNested_iff (expression : Expression) :
    expression.RightNested ↔ ∃ chain : Chain, chain.toExpression = expression := by
  constructor
  · intro h
    induction expression with
    | literal value => exact ⟨.single value, rfl⟩
    | binary left operator right _ ih =>
      obtain ⟨⟨value, rfl⟩, hright⟩ := h
      obtain ⟨rest, rfl⟩ := ih hright
      exact ⟨.link value operator rest, rfl⟩
  · rintro ⟨chain, rfl⟩
    induction chain with
    | single value => trivial
    | link value operator rest ih => exact ⟨⟨value, rfl⟩, ih⟩

/-- The tree of a chain has the literals of the chain. -/
@[simp] theorem literals_toExpression (chain : Chain) :
    chain.toExpression.literals = chain.literals := by
  induction chain with
  | single value => rfl
  | link value operator rest ih => simp [Chain.toExpression, literals, Chain.literals, ih]

end Expression

end TypedVars.Condition
