import TypedVars.Proofs.Condition.Chain
import TypedVars.Proofs.Condition.Comparison

/-!
# The truth value of a chain

Which chains have a truth value is a matter of kinds and places only: connectives stand between
truth values, and a comparison stands last, between literals of one kind. Every other chain has an
offending place, and its fault is the one of the first such place, although every part of it is
evaluated. The main statement says this of every text.
-/

set_option autoImplicit false

namespace TypedVars.Condition

namespace Chain

/-! ## Places -/

/-- The literal at a place has a kind. -/
def KindAt (chain : Chain) (i : Nat) (kind : Literal.Kind) : Prop :=
  chain.literals[i]?.map Literal.kind = some kind

/-- The operator behind the literal at a place is a connective. -/
def ConnectiveAt (chain : Chain) (i : Nat) : Prop :=
  ∃ which, chain.operators[i]? = some (.connective which)

/-- The operator behind the literal at a place is a comparison. -/
def ComparisonAt (chain : Chain) (i : Nat) : Prop :=
  ∃ which, chain.operators[i]? = some (.comparison which)

/-- A place of a truth value: in front of a connective, or the last place when no operator or a
connective is in front of it. -/
def BooleanPlace (chain : Chain) (i : Nat) : Prop :=
  chain.ConnectiveAt i ∨
    (i = chain.operators.length ∧
      (chain.operators.length = 0 ∨ chain.ConnectiveAt (chain.operators.length - 1)))

/-- A chain of which the kinds of the literals suit the operators: a truth value alone, or truth
values in front of connectives and then the last operator between literals that suit it. -/
def WellKinded (chain : Chain) : Prop :=
  (chain.operators.length = 0 ∧ chain.KindAt 0 .boolean) ∨
    ∃ last, chain.operators.length = last + 1 ∧
      (∀ i < last, chain.ConnectiveAt i ∧ chain.KindAt i .boolean) ∧
      ((chain.ConnectiveAt last ∧ chain.KindAt last .boolean ∧ chain.KindAt (last + 1) .boolean) ∨
        (chain.ComparisonAt last ∧ ∃ kind, chain.KindAt last kind ∧ chain.KindAt (last + 1) kind))

/-- What is wrong at a place of a chain. -/
inductive Offends (chain : Chain) : Nat → Fault → Prop
  /-- Another literal stands where a truth value is needed. -/
  | nonBoolean {i : Nat} {literal : Literal} (place : chain.BooleanPlace i)
      (found : chain.literals[i]? = some literal) (other : literal.kind ≠ .boolean) :
      Offends chain i (.nonBoolean literal)
  /-- A comparison is not the last operator, so that its right side is a chain. -/
  | compound {i : Nat} {operand : Expression} (comparison : chain.ComparisonAt i)
      (more : i + 1 < chain.operators.length)
      (nested : operand = (chain.drop (i + 1)).toExpression)
      (written : operand.text = (chain.drop (i + 1)).text) :
      Offends chain i (.compoundOperand operand)
  /-- The last operator compares literals of different kinds. -/
  | mismatch {i : Nat} {left right : Literal} (comparison : chain.ComparisonAt i)
      (last : i + 1 = chain.operators.length) (foundLeft : chain.literals[i]? = some left)
      (foundRight : chain.literals[i + 1]? = some right) (different : left.kind ≠ right.kind) :
      Offends chain i (.mismatch left right)

/-- A place offends and none in front of it does. -/
def FirstOffence (chain : Chain) (i : Nat) (fault : Fault) : Prop :=
  chain.Offends i fault ∧ ∀ j < i, ∀ other, ¬ chain.Offends j other

/-- The first literal of a chain. -/
def first : Chain → Literal
  | single literal => literal
  | link literal _ _ => literal

/-- A chain holds: a literal alone when it is the true one, a connective when both of its sides or
one of them does, where the right side is the whole chain behind it, and a comparison when it
relates the literals next to it. -/
def Holds : Chain → Prop
  | single literal => literal = .boolean true
  | link literal (.connective .and) rest => literal = .boolean true ∧ rest.Holds
  | link literal (.connective .or) rest => literal = .boolean true ∨ rest.Holds
  | link literal (.comparison which) rest => which.Relates literal rest.first

/-! ## Facts about places -/

/-- A connective stands at the place of an operator. -/
theorem ConnectiveAt.lt_length {chain : Chain} {i : Nat} (h : chain.ConnectiveAt i) :
    i < chain.operators.length := by
  obtain ⟨which, hwhich⟩ := h
  exact (List.getElem?_eq_some_iff.1 hwhich).1

/-- A comparison stands at the place of an operator. -/
theorem ComparisonAt.lt_length {chain : Chain} {i : Nat} (h : chain.ComparisonAt i) :
    i < chain.operators.length := by
  obtain ⟨which, hwhich⟩ := h
  exact (List.getElem?_eq_some_iff.1 hwhich).1

/-- No operator is a comparison and a connective. -/
theorem ComparisonAt.not_connectiveAt {chain : Chain} {i : Nat} (h : chain.ComparisonAt i) :
    ¬ chain.ConnectiveAt i := by
  rintro ⟨connective, hconnective⟩
  obtain ⟨comparison, hcomparison⟩ := h
  simp [hconnective] at hcomparison

/-- The literal in front of a comparison need not be boolean. -/
theorem ComparisonAt.not_booleanPlace {chain : Chain} {i : Nat} (h : chain.ComparisonAt i) :
    ¬ chain.BooleanPlace i := by
  rintro (hconnective | ⟨hend, -⟩)
  · exact h.not_connectiveAt hconnective
  · have := h.lt_length
    omega

/-- A literal has the kind that is found at its place. -/
theorem KindAt.kind_eq {chain : Chain} {i : Nat} {kind : Literal.Kind} {literal : Literal}
    (h : chain.KindAt i kind) (found : chain.literals[i]? = some literal) :
    literal.kind = kind := by
  simpa [KindAt, found] using h

/-! ## Chains without and with offending places -/

/-- A truth value is found wherever a chain of suitable kinds needs one. -/
theorem WellKinded.kindAt_boolean {chain : Chain} (h : chain.WellKinded) {i : Nat}
    (place : chain.BooleanPlace i) : chain.KindAt i .boolean := by
  obtain ⟨hnone, hkind⟩ | ⟨last, hlength, hfront, hend⟩ := h
  · obtain hconnective | ⟨rfl, -⟩ := place
    · have := hconnective.lt_length
      omega
    · rw [hnone]
      exact hkind
  · obtain hconnective | ⟨rfl, hnone | hconnective⟩ := place
    · by_cases hi : i < last
      · exact (hfront i hi).2
      · have := hconnective.lt_length
        obtain rfl : i = last := by omega
        obtain ⟨-, hkind, -⟩ | ⟨hcomparison, -⟩ := hend
        · exact hkind
        · exact absurd hconnective hcomparison.not_connectiveAt
    · omega
    · rw [hlength, Nat.add_sub_cancel] at hconnective
      rw [hlength]
      obtain ⟨-, -, hkind⟩ | ⟨hcomparison, -⟩ := hend
      · exact hkind
      · exact absurd hconnective hcomparison.not_connectiveAt

/-- A comparison in a chain of suitable kinds is the last operator and has sides of one kind. -/
theorem WellKinded.of_comparisonAt {chain : Chain} (h : chain.WellKinded) {i : Nat}
    (comparison : chain.ComparisonAt i) :
    i + 1 = chain.operators.length ∧ ∃ kind, chain.KindAt i kind ∧ chain.KindAt (i + 1) kind := by
  have hi := comparison.lt_length
  obtain ⟨hnone, -⟩ | ⟨last, hlength, hfront, hend⟩ := h
  · omega
  · by_cases hlast : i < last
    · exact absurd (hfront i hlast).1 comparison.not_connectiveAt
    · obtain rfl : i = last := by omega
      obtain ⟨hconnective, -⟩ | ⟨-, hkind⟩ := hend
      · exact absurd hconnective comparison.not_connectiveAt
      · exact ⟨hlength.symm, hkind⟩

/-- A chain with the right kinds offends nowhere. -/
theorem WellKinded.not_offends {chain : Chain} (h : chain.WellKinded) (i : Nat) (fault : Fault) :
    ¬ chain.Offends i fault := by
  rintro (⟨place, found, other⟩ | ⟨comparison, more, -, -⟩ |
    ⟨comparison, -, foundLeft, foundRight, different⟩)
  · exact other ((h.kindAt_boolean place).kind_eq found)
  · have := (h.of_comparisonAt comparison).1
    omega
  · obtain ⟨-, kind, hleft, hright⟩ := h.of_comparisonAt comparison
    exact different ((hleft.kind_eq foundLeft).trans (hright.kind_eq foundRight).symm)

/-- At each place there is one offence at most. -/
theorem Offends.unique {chain : Chain} {i : Nat} {fault other : Fault}
    (h : chain.Offends i fault) (h' : chain.Offends i other) : fault = other := by
  cases h with
  | nonBoolean place found _ =>
    cases h' with
    | nonBoolean _ found' _ => rw [Option.some.inj (found.symm.trans found')]
    | compound comparison _ _ _ => exact absurd place comparison.not_booleanPlace
    | mismatch comparison _ _ _ _ => exact absurd place comparison.not_booleanPlace
  | compound comparison more nested _ =>
    cases h' with
    | nonBoolean place _ _ => exact absurd place comparison.not_booleanPlace
    | compound _ _ nested' _ => rw [nested, nested']
    | mismatch _ last _ _ _ => omega
  | mismatch comparison last foundLeft foundRight _ =>
    cases h' with
    | nonBoolean place _ _ => exact absurd place comparison.not_booleanPlace
    | compound _ more _ _ => omega
    | mismatch _ _ foundLeft' foundRight' _ =>
      rw [Option.some.inj (foundLeft.symm.trans foundLeft'),
        Option.some.inj (foundRight.symm.trans foundRight')]

/-- A chain has one first offence at most. -/
theorem FirstOffence.unique {chain : Chain} {i j : Nat} {fault other : Fault}
    (h : chain.FirstOffence i fault) (h' : chain.FirstOffence j other) : fault = other := by
  have hle : i ≤ j := Nat.not_lt.1 fun hlt => h.2 j hlt other h'.1
  have hge : j ≤ i := Nat.not_lt.1 fun hlt => h'.2 i hlt fault h.1
  obtain rfl := Nat.le_antisymm hle hge
  exact h.1.unique h'.1

/-! ## A connective in front of a chain -/

section Connective

variable {literal : Literal} {which : Connective} {rest : Chain} {i : Nat}

/-- Behind a connective the places of truth values are those of the rest. -/
theorem booleanPlace_link_succ :
    (link literal (.connective which) rest).BooleanPlace (i + 1) ↔ rest.BooleanPlace i := by
  have hend : (link literal (.connective which) rest).ConnectiveAt rest.operators.length ↔
      rest.operators.length = 0 ∨ rest.ConnectiveAt (rest.operators.length - 1) := by
    cases hlength : rest.operators.length with
    | zero => simp [ConnectiveAt, operators]
    | succ last => simp [ConnectiveAt, operators]
  simp only [BooleanPlace, operators, List.length_cons, Nat.add_right_cancel_iff,
    Nat.add_sub_cancel, Nat.add_one_ne_zero, false_or, hend]
  rfl

/-- Behind a connective the offending places are those of the rest. -/
theorem offends_link_succ {fault : Fault} :
    (link literal (.connective which) rest).Offends (i + 1) fault ↔ rest.Offends i fault := by
  constructor
  · rintro (⟨place, found, other⟩ | ⟨comparison, more, nested, written⟩ |
      ⟨comparison, last, foundLeft, foundRight, different⟩)
    · exact .nonBoolean (booleanPlace_link_succ.1 place) found other
    · exact .compound comparison (Nat.lt_of_succ_lt_succ more) nested written
    · exact .mismatch comparison (Nat.succ.inj last) foundLeft foundRight different
  · rintro (⟨place, found, other⟩ | ⟨comparison, more, nested, written⟩ |
      ⟨comparison, last, foundLeft, foundRight, different⟩)
    · exact .nonBoolean (booleanPlace_link_succ.2 place) found other
    · exact .compound comparison (Nat.succ_lt_succ more) nested written
    · exact .mismatch comparison (congrArg Nat.succ last) foundLeft foundRight different

/-- A boolean in front of a connective does not offend. -/
theorem not_offends_link_zero (hliteral : literal.kind = .boolean) (fault : Fault) :
    ¬ (link literal (.connective which) rest).Offends 0 fault := by
  have hconnective : (link literal (.connective which) rest).ConnectiveAt 0 := ⟨which, rfl⟩
  rintro (⟨-, found, other⟩ | ⟨comparison, -, -, -⟩ | ⟨comparison, -, -, -, -⟩)
  · obtain rfl := Option.some.inj found
    exact other hliteral
  · exact comparison.not_connectiveAt hconnective
  · exact comparison.not_connectiveAt hconnective

/-- The first offence of the rest is the first one, when the literal in front suits. -/
theorem FirstOffence.link (hliteral : literal.kind = .boolean) {fault : Fault}
    (h : rest.FirstOffence i fault) :
    (link literal (.connective which) rest).FirstOffence (i + 1) fault := by
  refine ⟨offends_link_succ.2 h.1, ?_⟩
  intro j hj other
  cases j with
  | zero => exact not_offends_link_zero hliteral other
  | succ j =>
    intro hother
    exact h.2 j (Nat.lt_of_succ_lt_succ hj) other (offends_link_succ.1 hother)

/-- A truth value and a connective may stand in front of a chain of suitable kinds. -/
theorem WellKinded.link (hliteral : literal.kind = .boolean) (h : rest.WellKinded) :
    (link literal (.connective which) rest).WellKinded := by
  have hkind : (Chain.link literal (.connective which) rest).KindAt 0 .boolean := by
    simp [KindAt, literals, hliteral]
  obtain ⟨hnone, hrest⟩ | ⟨last, hlength, hfront, hend⟩ := h
  · refine .inr ⟨0, by simp [operators, hnone], by simp, .inl ⟨⟨which, rfl⟩, hkind, hrest⟩⟩
  · refine .inr ⟨last + 1, by simp [operators, hlength], ?_, hend⟩
    intro i hi
    cases i with
    | zero => exact ⟨⟨which, rfl⟩, hkind⟩
    | succ i => exact hfront i (Nat.lt_of_succ_lt_succ hi)

end Connective

end Chain

/-! ## Evaluation -/

/-- An expression evaluates to a truth value, which is the true one exactly when a proposition is
true. -/
def Expression.Settles (expression : Expression) (meaning : Prop) : Prop :=
  ∃ value, expression.evaluate = .ok value ∧ (value = true ↔ meaning)

/-- A truth value alone evaluates to itself. -/
theorem Expression.evaluate_literal_of_kind_eq {literal : Literal} (h : literal.kind = .boolean) :
    ∃ value, literal = .boolean value ∧ (Expression.literal literal).evaluate = .ok value := by
  cases literal with
  | boolean value => exact ⟨value, rfl, rfl⟩
  | integer value => exact absurd h (by simp [Literal.kind])
  | string value => exact absurd h (by simp [Literal.kind])

/-- A literal of another kind alone is refused. -/
theorem Expression.evaluate_literal_of_kind_ne {literal : Literal} (h : literal.kind ≠ .boolean) :
    (Expression.literal literal).evaluate = .error (.nonBoolean literal) := by
  cases literal with
  | boolean value => exact absurd rfl h
  | integer value => rfl
  | string value => rfl

namespace Chain

/-- A connective between a truth value and a chain that is settled is settled by both. -/
theorem settles_connective (first : Bool) (which : Connective) {rest : Chain}
    (h : rest.toExpression.Settles rest.Holds) :
    let chain := link (.boolean first) (.connective which) rest
    chain.toExpression.Settles chain.Holds := by
  intro chain
  obtain ⟨value, hvalue, hiff⟩ := h
  refine ⟨which.apply first value, ?_, ?_⟩
  · simp only [chain, toExpression, Expression.evaluate, hvalue]
    rfl
  · cases which with
    | and => simp [chain, Holds, Connective.apply, hiff]
    | or => simp [chain, Holds, Connective.apply, hiff]

/-- Two literals with a comparison between them are settled by what it says of them when they are of
one kind, and otherwise they are an offence. -/
theorem verdict_comparison (left right : Literal) (which : Comparison) :
    let chain := link left (.comparison which) (single right)
    (chain.WellKinded ∧ chain.toExpression.Settles chain.Holds) ∨
      (chain.Offends 0 (.mismatch left right) ∧
        chain.toExpression.evaluate = .error (.mismatch left right)) := by
  intro chain
  have hcomparison : chain.ComparisonAt 0 := ⟨which, rfl⟩
  by_cases hkind : left.kind = right.kind
  · have hleft : chain.KindAt 0 right.kind := by simp [chain, KindAt, literals, hkind]
    have hright : chain.KindAt 1 right.kind := rfl
    exact .inl ⟨.inr ⟨0, rfl, by simp, .inr ⟨hcomparison, right.kind, hleft, hright⟩⟩,
      which.exists_test_relates hkind⟩
  · exact .inr ⟨.mismatch hcomparison rfl rfl rfl hkind, which.test_of_kind_ne hkind⟩

/-- A chain either has suitable kinds and is settled by whether it holds, or it has a first offence
and the fault of that. -/
theorem verdict (chain : Chain) :
    (chain.WellKinded ∧ chain.toExpression.Settles chain.Holds) ∨
      ∃ i fault, chain.FirstOffence i fault ∧ chain.toExpression.evaluate = .error fault := by
  induction chain with
  | single literal =>
    by_cases hkind : literal.kind = .boolean
    · obtain ⟨value, rfl, hvalue⟩ := Expression.evaluate_literal_of_kind_eq hkind
      exact .inl ⟨.inl ⟨rfl, rfl⟩, value, hvalue, by simp [Holds]⟩
    · have hoffends : (single literal).Offends 0 (.nonBoolean literal) :=
        .nonBoolean (.inr ⟨rfl, .inl rfl⟩) rfl hkind
      exact .inr ⟨0, _, ⟨hoffends, by simp⟩, Expression.evaluate_literal_of_kind_ne hkind⟩
  | link literal operator rest ih =>
    cases operator with
    | connective which =>
      by_cases hkind : literal.kind = .boolean
      · obtain ⟨value, rfl, hliteral⟩ := Expression.evaluate_literal_of_kind_eq hkind
        obtain ⟨hrest, hsettled⟩ | ⟨i, fault, hfirst, hfault⟩ := ih
        · exact .inl ⟨hrest.link hkind, settles_connective value which hsettled⟩
        · refine .inr ⟨i + 1, fault, hfirst.link hkind, ?_⟩
          simp only [toExpression, Expression.evaluate, hfault]
          rfl
      · have hliteral := Expression.evaluate_literal_of_kind_ne hkind
        have hoffends : (link literal (.connective which) rest).Offends 0 (.nonBoolean literal) :=
          .nonBoolean (.inl ⟨which, rfl⟩) rfl hkind
        refine .inr ⟨0, _, ⟨hoffends, by simp⟩, ?_⟩
        simp only [toExpression, Expression.evaluate, hliteral]
        rfl
    | comparison which =>
      cases rest with
      | single right =>
        obtain hsettled | ⟨hoffends, hfault⟩ := verdict_comparison literal right which
        · exact .inl hsettled
        · exact .inr ⟨0, _, ⟨hoffends, by simp⟩, hfault⟩
      | link right operator rest =>
        have hoffends : (link literal (.comparison which) (link right operator rest)).Offends 0
            (.compoundOperand (link right operator rest).toExpression) :=
          .compound ⟨which, rfl⟩ (by simp [operators]) rfl (text_toExpression _)
        exact .inr ⟨0, _, ⟨hoffends, by simp⟩, rfl⟩

end Chain

/-- The condition in a text has a truth value exactly when the kinds of its chain are suitable, and
then it is the true one exactly when the chain holds; otherwise its fault is that of the first
offending place. -/
theorem evaluate_verdict (text : Text) :
    let chain := Chain.ofPieces (tokens text)
    (∀ value, evaluate text = .ok value ↔ chain.WellKinded ∧ (value = true ↔ chain.Holds)) ∧
      ∀ fault, evaluate text = .error fault ↔ ∃ i, chain.FirstOffence i fault := by
  intro chain
  have hevaluate : evaluate text = chain.toExpression.evaluate := by
    rw [evaluate, parse_eq_toExpression]
  rw [hevaluate]
  obtain ⟨hkinds, settled, hvalue, hiff⟩ | ⟨i, fault, hfirst, hfault⟩ := chain.verdict
  · rw [hvalue]
    constructor
    · intro value
      rw [← hiff, and_iff_right hkinds, Except.ok.injEq, eq_comm, Bool.eq_iff_iff]
    · intro fault
      simpa using fun i hfirst => hkinds.not_offends i fault hfirst.1
  · rw [hfault]
    constructor
    · intro value
      have hkinds : ¬ chain.WellKinded := fun hkinds => hkinds.not_offends i fault hfirst.1
      simp [hkinds]
    · intro other
      simp only [Except.error.injEq]
      constructor
      · rintro rfl
        exact ⟨i, hfirst⟩
      · rintro ⟨j, hother⟩
        exact hfirst.unique hother

end TypedVars.Condition
