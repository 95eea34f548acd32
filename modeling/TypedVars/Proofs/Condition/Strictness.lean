import TypedVars.Condition.Evaluation

/-!
# Evaluation of both sides

Both sides of a connective are evaluated, also where the left one decides the value. Whether an
expression has a truth value is therefore a matter of its shape and of the kinds of its literals
alone, its fault is the leftmost one, and a value that it has is the one that is found when a right
side that does not matter is left out.

The parts of an expression that have to be truth values are told by their places, as sides taken
from the root. A part of a connective is reached from both ends of its place: by a step from the
part around it, and by a step from the root into one of the sides.
-/

set_option autoImplicit false

namespace TypedVars.Condition

/-- A side of an operator. -/
inductive Side where
  | left
  | right
deriving DecidableEq, Repr

/-- A place comes before another in the written order when they fork, and it goes to the left. -/
inductive Precedes : List Side → List Side → Prop
  | fork {place other : List Side} : Precedes (.left :: place) (.right :: other)
  | deeper {place other : List Side} (side : Side) (behind : Precedes place other) :
      Precedes (side :: place) (side :: other)

/-- Of two places only one can precede the other. -/
theorem Precedes.asymm {place other : List Side} (h : Precedes place other) :
    ¬ Precedes other place := by
  induction h with
  | fork =>
    intro h'
    cases h'
  | deeper side _ ih =>
    intro h'
    cases h' with
    | deeper _ behind => exact ih behind

namespace Expression

/-! ## Parts that have to be truth values -/

/-- The parts of an expression that have to be truth values, with their places: the expression
itself, and the sides of a connective that has to be one. -/
inductive TruthPart (whole : Expression) : List Side → Expression → Prop
  | root : TruthPart whole [] whole
  | left {place : List Side} {left right : Expression} {which : Connective}
      (parent : TruthPart whole place (.binary left (.connective which) right)) :
      TruthPart whole (place ++ [.left]) left
  | right {place : List Side} {left right : Expression} {which : Connective}
      (parent : TruthPart whole place (.binary left (.connective which) right)) :
      TruthPart whole (place ++ [.right]) right

variable {whole part left right : Expression} {which : Connective} {place : List Side}

/-- An expression that is no connective has no other part. -/
theorem truthPart_iff_of_not_connective
    (h : ∀ left which right, whole ≠ .binary left (.connective which) right) :
    whole.TruthPart place part ↔ place = [] ∧ part = whole := by
  constructor
  · intro hpart
    induction hpart with
    | root => exact ⟨rfl, rfl⟩
    | left _ ih => exact absurd ih.2.symm (h _ _ _)
    | right _ ih => exact absurd ih.2.symm (h _ _ _)
  · rintro ⟨rfl, rfl⟩
    exact .root

/-- The only part of a literal whose truth counts is the literal itself. -/
theorem truthPart_literal_iff {value : Literal} :
    (literal value).TruthPart place part ↔ place = [] ∧ part = .literal value :=
  truthPart_iff_of_not_connective (by simp)

/-- The only part of a comparison whose truth counts is the comparison itself. -/
theorem truthPart_comparison_iff {comparison : Comparison} :
    (binary left (.comparison comparison) right).TruthPart place part ↔
      place = [] ∧ part = .binary left (.comparison comparison) right :=
  truthPart_iff_of_not_connective (by simp)

/-- A part of the left side is one of the whole connective. -/
theorem TruthPart.of_left (h : left.TruthPart place part) :
    (binary left (.connective which) right).TruthPart (.left :: place) part := by
  induction h with
  | root => exact .left .root
  | left _ ih => exact .left ih
  | right _ ih => exact .right ih

/-- A part of the right side is one of the whole connective. -/
theorem TruthPart.of_right (h : right.TruthPart place part) :
    (binary left (.connective which) right).TruthPart (.right :: place) part := by
  induction h with
  | root => exact .right .root
  | left _ ih => exact .left ih
  | right _ ih => exact .right ih

/-- The parts of a connective are itself and those of its sides. -/
theorem truthPart_connective_iff :
    (binary left (.connective which) right).TruthPart place part ↔
      (place = [] ∧ part = .binary left (.connective which) right) ∨
        (∃ behind, place = .left :: behind ∧ left.TruthPart behind part) ∨
          ∃ behind, place = .right :: behind ∧ right.TruthPart behind part := by
  constructor
  · -- a place grows at its end, so that its first side stays that of the part around
    intro h
    induction h with
    | root => exact .inl ⟨rfl, rfl⟩
    | left _ ih =>
      obtain ⟨rfl, heq⟩ | ⟨behind, rfl, hside⟩ | ⟨behind, rfl, hside⟩ := ih
      · obtain ⟨rfl, -, -⟩ := Expression.binary.inj heq
        exact .inr (.inl ⟨[], rfl, .root⟩)
      · exact .inr (.inl ⟨behind ++ [.left], rfl, .left hside⟩)
      · exact .inr (.inr ⟨behind ++ [.left], rfl, .left hside⟩)
    | right _ ih =>
      obtain ⟨rfl, heq⟩ | ⟨behind, rfl, hside⟩ | ⟨behind, rfl, hside⟩ := ih
      · obtain ⟨-, -, rfl⟩ := Expression.binary.inj heq
        exact .inr (.inr ⟨[], rfl, .root⟩)
      · exact .inr (.inl ⟨behind ++ [.right], rfl, .right hside⟩)
      · exact .inr (.inr ⟨behind ++ [.right], rfl, .right hside⟩)
  · rintro (⟨rfl, rfl⟩ | ⟨behind, rfl, hside⟩ | ⟨behind, rfl, hside⟩)
    · exact .root
    · exact hside.of_left
    · exact hside.of_right

/-- At a place stands one part only. -/
theorem TruthPart.unique {other : Expression} (h : whole.TruthPart place part)
    (h' : whole.TruthPart place other) : part = other := by
  induction whole generalizing place with
  | literal value =>
    rw [truthPart_literal_iff] at h h'
    rw [h.2, h'.2]
  | binary left operator right ihleft ihright =>
    cases operator with
    | comparison which =>
      rw [truthPart_comparison_iff] at h h'
      rw [h.2, h'.2]
    | connective which =>
      rw [truthPart_connective_iff] at h h'
      obtain ⟨rfl, rfl⟩ | ⟨behind, rfl, hside⟩ | ⟨behind, rfl, hside⟩ := h
      · simpa [eq_comm] using h'
      · exact ihleft hside (by simpa using h')
      · exact ihright hside (by simpa using h')

/-! ## Suitable kinds -/

/-- Every literal that has to be a truth value is one, and every comparison that has to be one
stands between literals of one kind. -/
structure WellKinded (whole : Expression) : Prop where
  truth_of_literal : ∀ place value, whole.TruthPart place (.literal value) →
    ∃ truth, value = .boolean truth
  kind_eq_of_comparison : ∀ place left which right,
    whole.TruthPart place (.binary left (.comparison which) right) →
      ∃ leftValue rightValue, left = .literal leftValue ∧ right = .literal rightValue ∧
        leftValue.kind = rightValue.kind

/-- A literal has the right kind when it is a boolean. -/
theorem wellKinded_literal_iff {value : Literal} :
    (literal value).WellKinded ↔ ∃ truth, value = .boolean truth := by
  constructor
  · intro h
    exact h.truth_of_literal [] value .root
  · rintro h
    constructor
    · intro place other hpart
      obtain ⟨-, hother⟩ := truthPart_literal_iff.1 hpart
      obtain rfl := Expression.literal.inj hother
      exact h
    · intro place left which right hpart
      simp [truthPart_literal_iff] at hpart

/-- A comparison has the right kinds when it is one of two literals of the same kind. -/
theorem wellKinded_comparison_iff {comparison : Comparison} :
    (binary left (.comparison comparison) right).WellKinded ↔
      ∃ leftValue rightValue, left = .literal leftValue ∧ right = .literal rightValue ∧
        leftValue.kind = rightValue.kind := by
  constructor
  · intro h
    exact h.kind_eq_of_comparison [] left comparison right .root
  · intro h
    constructor
    · intro place value hpart
      simp [truthPart_comparison_iff] at hpart
    · intro place other which another hpart
      obtain ⟨-, heq⟩ := truthPart_comparison_iff.1 hpart
      obtain ⟨rfl, -, rfl⟩ := Expression.binary.inj heq
      exact h

/-- A connective has the right kinds when both its sides have. -/
theorem wellKinded_connective_iff :
    (binary left (.connective which) right).WellKinded ↔ left.WellKinded ∧ right.WellKinded := by
  constructor
  · rintro ⟨hliteral, hcomparison⟩
    constructor
    · exact ⟨fun _ _ hpart => hliteral _ _ hpart.of_left,
        fun _ _ _ _ hpart => hcomparison _ _ _ _ hpart.of_left⟩
    · exact ⟨fun _ _ hpart => hliteral _ _ hpart.of_right,
        fun _ _ _ _ hpart => hcomparison _ _ _ _ hpart.of_right⟩
  · rintro ⟨hleft, hright⟩
    constructor
    · intro place value hpart
      obtain ⟨-, heq⟩ | ⟨behind, -, hside⟩ | ⟨behind, -, hside⟩ := truthPart_connective_iff.1 hpart
      · simp at heq
      · exact hleft.truth_of_literal _ _ hside
      · exact hright.truth_of_literal _ _ hside
    · intro place first comparison second hpart
      obtain ⟨-, heq⟩ | ⟨behind, -, hside⟩ | ⟨behind, -, hside⟩ := truthPart_connective_iff.1 hpart
      · simp at heq
      · exact hleft.kind_eq_of_comparison _ _ _ _ hside
      · exact hright.kind_eq_of_comparison _ _ _ _ hside

end Expression

/-! ## Outlines -/

/-- What is left of an expression when its values are dropped: its shape, with connectives and
comparisons told apart, and the kinds of its literals. -/
inductive Outline where
  | literal (kind : Literal.Kind)
  | connective (left right : Outline)
  | comparison (left right : Outline)
deriving DecidableEq, Repr

namespace Expression

variable {whole part left right : Expression} {which : Connective} {place : List Side}

/-- The outline of an expression. -/
def outline : Expression → Outline
  | literal value => .literal value.kind
  | binary left (.connective _) right => .connective left.outline right.outline
  | binary left (.comparison _) right => .comparison left.outline right.outline

/-- A tree with the outline of a literal is a literal of that kind. -/
theorem exists_of_outline_eq_literal {kind : Literal.Kind} (h : whole.outline = .literal kind) :
    ∃ value, whole = .literal value ∧ value.kind = kind := by
  cases whole with
  | literal value => exact ⟨value, rfl, Outline.literal.inj h⟩
  | binary left operator right => cases operator <;> simp [outline] at h

/-- A tree with the outline of a connective is one of trees with the outlines of its sides. -/
theorem exists_of_outline_eq_connective {first second : Outline}
    (h : whole.outline = .connective first second) :
    ∃ left which right, whole = .binary left (.connective which) right ∧
      left.outline = first ∧ right.outline = second := by
  cases whole with
  | literal value => simp [outline] at h
  | binary left operator right =>
    cases operator with
    | connective which => exact ⟨left, which, right, rfl, Outline.connective.inj h⟩
    | comparison which => simp [outline] at h

/-- A tree with the outline of a comparison is one of trees with the outlines of its sides. -/
theorem exists_of_outline_eq_comparison {first second : Outline}
    (h : whole.outline = .comparison first second) :
    ∃ left which right, whole = .binary left (.comparison which) right ∧
      left.outline = first ∧ right.outline = second := by
  cases whole with
  | literal value => simp [outline] at h
  | binary left operator right =>
    cases operator with
    | connective which => simp [outline] at h
    | comparison which => exact ⟨left, which, right, rfl, Outline.comparison.inj h⟩

/-- Only the outline of an expression decides whether its kinds are suitable. -/
theorem WellKinded.of_outline_eq {other : Expression} (h : whole.WellKinded)
    (houtline : other.outline = whole.outline) : other.WellKinded := by
  induction whole generalizing other with
  | literal value =>
    obtain ⟨found, rfl, hkind⟩ := exists_of_outline_eq_literal houtline
    obtain ⟨truth, rfl⟩ := wellKinded_literal_iff.1 h
    rw [wellKinded_literal_iff]
    cases found <;> simp [Literal.kind] at hkind ⊢
  | binary left operator right ihleft ihright =>
    cases operator with
    | connective which =>
      obtain ⟨hleft, hright⟩ := wellKinded_connective_iff.1 h
      obtain ⟨first, _, second, rfl, hfirst, hsecond⟩ := exists_of_outline_eq_connective houtline
      exact wellKinded_connective_iff.2 ⟨ihleft hleft hfirst, ihright hright hsecond⟩
    | comparison which =>
      obtain ⟨leftValue, rightValue, rfl, rfl, hkind⟩ := wellKinded_comparison_iff.1 h
      obtain ⟨first, _, second, rfl, hfirst, hsecond⟩ := exists_of_outline_eq_comparison houtline
      obtain ⟨firstValue, rfl, hleft⟩ := exists_of_outline_eq_literal hfirst
      obtain ⟨secondValue, rfl, hright⟩ := exists_of_outline_eq_literal hsecond
      have hfound : firstValue.kind = secondValue.kind := by rw [hleft, hright, hkind]
      exact wellKinded_comparison_iff.2 ⟨firstValue, secondValue, rfl, rfl, hfound⟩

/-! ## Faults by place -/

/-- What is wrong with a part that has to be a truth value. The left side of a comparison is looked
at before the right one, and both before their kinds. -/
inductive HasFault : Expression → Fault → Prop
  | nonBoolean {value : Literal} (other : ∀ truth, value ≠ .boolean truth) :
      HasFault (.literal value) (.nonBoolean value)
  | compoundLeft {first second right : Expression} {operator : Operator} {which : Comparison} :
      HasFault (.binary (.binary first operator second) (.comparison which) right)
        (.compoundOperand (.binary first operator second))
  | compoundRight {value : Literal} {first second : Expression} {operator : Operator}
      {which : Comparison} :
      HasFault (.binary (.literal value) (.comparison which) (.binary first operator second))
        (.compoundOperand (.binary first operator second))
  | mismatch {leftValue rightValue : Literal} {which : Comparison}
      (different : leftValue.kind ≠ rightValue.kind) :
      HasFault (.binary (.literal leftValue) (.comparison which) (.literal rightValue))
        (.mismatch leftValue rightValue)

/-- A fault at a place of an expression. -/
def FaultAt (whole : Expression) (place : List Side) (fault : Fault) : Prop :=
  ∃ part, whole.TruthPart place part ∧ part.HasFault fault

/-- The leftmost fault of an expression. -/
def FirstFault (whole : Expression) (place : List Side) (fault : Fault) : Prop :=
  whole.FaultAt place fault ∧
    ∀ other found, whole.FaultAt other found → other = place ∨ Precedes place other

/-- A part has one fault at most. -/
theorem HasFault.unique {fault other : Fault} (h : part.HasFault fault)
    (h' : part.HasFault other) : fault = other := by
  cases h <;> cases h' <;> rfl

/-- A tree has one first fault at most. -/
theorem FirstFault.unique {other : List Side} {fault found : Fault}
    (h : whole.FirstFault place fault) (h' : whole.FirstFault other found) : fault = found := by
  obtain ⟨⟨part, hpart, hfault⟩, hfirst⟩ := h
  obtain ⟨⟨another, hanother, hfound⟩, hsecond⟩ := h'
  obtain rfl : other = place := by
    obtain heq | hbefore := hfirst other found ⟨another, hanother, hfound⟩
    · exact heq
    · obtain heq | hbehind := hsecond place fault ⟨part, hpart, hfault⟩
      · exact heq.symm
      · exact absurd hbehind hbefore.asymm
  obtain rfl := hpart.unique hanother
  exact hfault.unique hfound

/-- An expression of suitable kinds has no fault anywhere. -/
theorem WellKinded.not_faultAt {fault : Fault} (h : whole.WellKinded) :
    ¬ whole.FaultAt place fault := by
  rintro ⟨part, hpart, hfault⟩
  cases hfault with
  | nonBoolean other =>
    obtain ⟨truth, rfl⟩ := h.truth_of_literal _ _ hpart
    exact other truth rfl
  | compoundLeft =>
    obtain ⟨_, _, hleft, -⟩ := h.kind_eq_of_comparison _ _ _ _ hpart
    simp at hleft
  | compoundRight =>
    obtain ⟨_, _, -, hright, -⟩ := h.kind_eq_of_comparison _ _ _ _ hpart
    simp at hright
  | mismatch different =>
    obtain ⟨_, _, hleft, hright, hkind⟩ := h.kind_eq_of_comparison _ _ _ _ hpart
    obtain rfl := Expression.literal.inj hleft
    obtain rfl := Expression.literal.inj hright
    exact different hkind

/-- A fault of a connective is one of its left or its right side. -/
theorem faultAt_connective_iff {fault : Fault} :
    (binary left (.connective which) right).FaultAt place fault ↔
      (∃ behind, place = .left :: behind ∧ left.FaultAt behind fault) ∨
        ∃ behind, place = .right :: behind ∧ right.FaultAt behind fault := by
  constructor
  · rintro ⟨part, hpart, hfault⟩
    obtain ⟨-, rfl⟩ | ⟨behind, rfl, hside⟩ | ⟨behind, rfl, hside⟩ :=
      truthPart_connective_iff.1 hpart
    · cases hfault
    · exact .inl ⟨behind, rfl, part, hside, hfault⟩
    · exact .inr ⟨behind, rfl, part, hside, hfault⟩
  · rintro (⟨behind, rfl, part, hside, hfault⟩ | ⟨behind, rfl, part, hside, hfault⟩)
    · exact ⟨part, hside.of_left, hfault⟩
    · exact ⟨part, hside.of_right, hfault⟩

/-- The leftmost fault of a connective is that of its left side, if it has one. -/
theorem FirstFault.of_left {fault : Fault} (h : left.FirstFault place fault) :
    (binary left (.connective which) right).FirstFault (.left :: place) fault := by
  refine ⟨faultAt_connective_iff.2 (.inl ⟨place, rfl, h.1⟩), ?_⟩
  intro other found hother
  obtain ⟨behind, rfl, hside⟩ | ⟨behind, rfl, hside⟩ := faultAt_connective_iff.1 hother
  · obtain rfl | hbefore := h.2 behind found hside
    · exact .inl rfl
    · exact .inr (.deeper .left hbefore)
  · exact .inr .fork

/-- The first fault of the right side is that of the whole if the left side has none. -/
theorem FirstFault.of_right {fault : Fault} (hleft : left.WellKinded)
    (h : right.FirstFault place fault) :
    (binary left (.connective which) right).FirstFault (.right :: place) fault := by
  refine ⟨faultAt_connective_iff.2 (.inr ⟨place, rfl, h.1⟩), ?_⟩
  intro other found hother
  obtain ⟨behind, rfl, hside⟩ | ⟨behind, rfl, hside⟩ := faultAt_connective_iff.1 hother
  · exact absurd hside hleft.not_faultAt
  · obtain rfl | hbefore := h.2 behind found hside
    · exact .inl rfl
    · exact .inr (.deeper .right hbefore)

/-- A fault of an expression that is no connective is its leftmost one. -/
theorem firstFault_root {fault : Fault}
    (h : ∀ left which right, whole ≠ .binary left (.connective which) right)
    (hfault : whole.HasFault fault) : whole.FirstFault [] fault := by
  refine ⟨⟨whole, .root, hfault⟩, ?_⟩
  rintro other found ⟨part, hpart, -⟩
  exact .inl ((truthPart_iff_of_not_connective h).1 hpart).1

/-! ## Evaluation -/

/-- The truth value of an expression when the right side of a connective is left out wherever the
left side decides. -/
def evaluateLazily : Expression → Except Fault Bool
  | .literal (.boolean value) => .ok value
  | .literal other => .error (.nonBoolean other)
  | .binary left (.connective .and) right => do
    if ← evaluateLazily left then evaluateLazily right else return false
  | .binary left (.connective .or) right => do
    if ← evaluateLazily left then return true else evaluateLazily right
  | .binary left (.comparison which) right => do
    let leftLiteral ← left.operand
    let rightLiteral ← right.operand
    let order ← leftLiteral.compare rightLiteral
    return which.holds order

/-- A connective of sides with values has the value it gives them, lazily too. -/
theorem evaluateLazily_connective {leftValue rightValue : Bool}
    (hleft : left.evaluateLazily = .ok leftValue) (hright : right.evaluateLazily = .ok rightValue) :
    (binary left (.connective which) right).evaluateLazily =
      .ok (which.apply leftValue rightValue) := by
  cases which <;> cases leftValue <;>
    simp [evaluateLazily, hleft, hright, Connective.apply, bind, Except.bind, pure, Except.pure]

/-- A comparison of literals is evaluated by comparing them. -/
theorem evaluate_comparison_literals (left right : Literal) (which : Comparison) :
    (binary (.literal left) (.comparison which) (.literal right)).evaluate =
      (left.compare right).map which.holds := by
  show (left.compare right >>= fun order => pure (which.holds order)) = _
  cases left.compare right <;> rfl

/-- A comparison either stands between literals of one kind and has a value, or has a fault. -/
theorem evaluate_comparison_cases (left right : Expression) (which : Comparison) :
    ((binary left (.comparison which) right).WellKinded ∧
      ∃ value, (binary left (.comparison which) right).evaluate = .ok value) ∨
      ∃ fault, (binary left (.comparison which) right).HasFault fault ∧
        (binary left (.comparison which) right).evaluate = .error fault := by
  cases left with
  | binary first operator second => exact .inr ⟨_, .compoundLeft, rfl⟩
  | literal leftValue =>
  cases right with
  | binary first operator second => exact .inr ⟨_, .compoundRight, rfl⟩
  | literal rightValue =>
    have hkind := Literal.compare?_isSome_iff leftValue rightValue
    rw [evaluate_comparison_literals, Literal.compare]
    cases horder : Literal.compare? leftValue rightValue with
    | some order =>
      rw [horder] at hkind
      exact .inl ⟨wellKinded_comparison_iff.2 ⟨_, _, rfl, rfl, hkind.1 rfl⟩, _, rfl⟩
    | none =>
      rw [horder] at hkind
      have hdifferent : leftValue.kind ≠ rightValue.kind := by simpa using hkind
      exact .inr ⟨_, .mismatch hdifferent, rfl⟩

/-- An expression either has suitable kinds and a value, or a leftmost fault, which is its own. -/
theorem evaluate_cases (whole : Expression) :
    (whole.WellKinded ∧ ∃ value, whole.evaluate = .ok value ∧ whole.evaluateLazily = .ok value) ∨
      ∃ place fault, whole.FirstFault place fault ∧ whole.evaluate = .error fault := by
  induction whole with
  | literal value =>
    have hother {other : Literal} (h : ∀ truth, other ≠ .boolean truth) :
        (literal other).FirstFault [] (.nonBoolean other) :=
      firstFault_root (by simp) (.nonBoolean h)
    cases value with
    | boolean truth => exact .inl ⟨wellKinded_literal_iff.2 ⟨truth, rfl⟩, truth, rfl, rfl⟩
    | integer value => exact .inr ⟨[], _, hother (by simp), rfl⟩
    | string value => exact .inr ⟨[], _, hother (by simp), rfl⟩
  | binary left operator right ihleft ihright =>
    cases operator with
    | comparison which =>
      obtain ⟨hkinds, value, hvalue⟩ | ⟨fault, hfault, hevaluate⟩ :=
        evaluate_comparison_cases left right which
      · exact .inl ⟨hkinds, value, hvalue, hvalue⟩
      · exact .inr ⟨[], fault, firstFault_root (by simp) hfault, hevaluate⟩
    | connective which =>
      -- a fault on the left hides the right side; one on the right is the leftmost one because the
      -- left side, having a value, has none
      obtain ⟨hleft, leftValue, hevaluateLeft, hlazilyLeft⟩ | ⟨place, fault, hfault, hevaluate⟩ :=
        ihleft
      · obtain ⟨hright, rightValue, hevaluateRight, hlazilyRight⟩ |
          ⟨place, fault, hfault, hevaluate⟩ := ihright
        · refine .inl ⟨wellKinded_connective_iff.2 ⟨hleft, hright⟩,
            which.apply leftValue rightValue, ?_,
            evaluateLazily_connective hlazilyLeft hlazilyRight⟩
          rw [evaluate, hevaluateLeft, hevaluateRight]
          rfl
        · refine .inr ⟨.right :: place, fault, hfault.of_right hleft, ?_⟩
          rw [evaluate, hevaluateLeft, hevaluate]
          rfl
      · refine .inr ⟨.left :: place, fault, hfault.of_left, ?_⟩
        rw [evaluate, hevaluate]
        rfl

/-- An expression has a truth value exactly when its kinds are suitable, which its outline decides,
and it is the value that is found when right sides that do not matter are left out. Otherwise its
fault is the leftmost one. -/
theorem evaluate_strictly (whole : Expression) :
    ((∃ value, whole.evaluate = .ok value) ↔ whole.WellKinded) ∧
      (∀ other : Expression, other.outline = whole.outline →
        (other.WellKinded ↔ whole.WellKinded)) ∧
      (∀ value, whole.evaluate = .ok value → whole.evaluateLazily = .ok value) ∧
      ∀ fault, whole.evaluate = .error fault ↔ ∃ place, whole.FirstFault place fault := by
  have houtline : ∀ other : Expression, other.outline = whole.outline →
      (other.WellKinded ↔ whole.WellKinded) := by
    intro other h
    exact ⟨fun hother => hother.of_outline_eq h.symm, fun hwhole => hwhole.of_outline_eq h⟩
  obtain ⟨hkinds, value, hvalue, hlazily⟩ | ⟨place, fault, hfirst, hfault⟩ := whole.evaluate_cases
  · refine ⟨iff_of_true ⟨value, hvalue⟩ hkinds, houtline, ?_, ?_⟩
    · intro other hother
      rw [hvalue] at hother
      rw [hlazily, hother]
    · intro fault
      rw [hvalue]
      refine iff_of_false (by simp) ?_
      rintro ⟨place, hfirst⟩
      exact hkinds.not_faultAt hfirst.1
  · refine ⟨iff_of_false (by simp [hfault]) fun hkinds => hkinds.not_faultAt hfirst.1, houtline,
      by simp [hfault], ?_⟩
    intro other
    rw [hfault, Except.error.injEq]
    constructor
    · rintro rfl
      exact ⟨place, hfirst⟩
    · rintro ⟨another, hother⟩
      exact hfirst.unique hother

/-- The right side is looked at although the left one decides. -/
example : let whole := binary (.literal (.boolean false)) (.connective .and) (.literal (.integer 1))
    whole.evaluateLazily = .ok false ∧ whole.evaluate = .error (.nonBoolean (.integer 1)) :=
  ⟨rfl, rfl⟩

end Expression

end TypedVars.Condition
