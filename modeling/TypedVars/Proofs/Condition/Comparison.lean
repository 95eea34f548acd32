import TypedVars.Proofs.Condition.Strictness
import TypedVars.Proofs.Text.Encoding

/-!
# The order of literals

Literals of one kind are totally ordered: truth values with the false one first, integers by value
and strings by code points, which is the order of their bytes as well. The six comparisons are views
of this one order: each is settled by whether two literals are equal and which of them is below the
other. Between literals of different kinds there is neither an order nor a comparison.
-/

set_option autoImplicit false

namespace TypedVars.Condition

open Text (bytes codePoints)

namespace Literal

/-- A literal is below another one of its kind. -/
inductive Below : Literal → Literal → Prop
  | boolean : Below (.boolean false) (.boolean true)
  | integer {left right : Int64} (h : left.toInt < right.toInt) :
      Below (.integer left) (.integer right)
  | string {left right : Text} (h : codePoints left < codePoints right) :
      Below (.string left) (.string right)

instance : LT Literal := ⟨Below⟩

variable {left right third : Literal} {order : Ordering}

/-- Integers are ordered by value. -/
theorem below_integer_iff {first second : Int64} :
    (integer first).Below (.integer second) ↔ first.toInt < second.toInt := by
  constructor
  · rintro (_ | h | _)
    exact h
  · exact .integer

/-- Strings are ordered by their code points. -/
theorem below_string_iff {first second : Text} :
    (string first).Below (.string second) ↔ codePoints first < codePoints second := by
  constructor
  · rintro (_ | _ | h)
    exact h
  · exact .string

/-- The order of literals is transitive. -/
theorem Below.trans (h : left.Below right) (h' : right.Below third) : left.Below third := by
  cases h with
  | boolean => cases h'
  | integer h =>
    cases h' with
    | integer h' => exact .integer (Int.lt_trans h h')
  | string h =>
    cases h' with
    | string h' => exact .string (List.lt_trans h h')

/-! ## Comparing two literals -/

/-- Literals are compared as equal just when they are the same. -/
theorem compare?_eq_some_eq_iff : compare? left right = some .eq ↔ left = right := by
  cases left <;> cases right <;> simp [compare?, Std.LawfulEqCmp.compare_eq_iff_eq]

/-- A comparison the other way round has the opposite outcome. -/
theorem compare?_swap (left right : Literal) :
    compare? right left = (compare? left right).map Ordering.swap := by
  cases left <;> cases right <;>
    simp only [compare?, Option.map_some, Option.map_none, Option.some.injEq] <;>
    exact Std.OrientedCmp.eq_swap

/-- Booleans are ordered with false in front of true. -/
theorem compare_boolean_eq_lt_iff (first second : Bool) :
    Ord.compare first second = .lt ↔ first = false ∧ second = true := by
  cases first <;> cases second <;> decide

/-- Comparing integers is comparing their values. -/
theorem compare_integer_eq_lt_iff (first second : Int64) :
    Ord.compare first second = .lt ↔ first.toInt < second.toInt := by
  rw [Std.compare_eq_lt, Int64.lt_iff_toInt_lt]

/-- Literals are compared as less just when the first one is below the second. -/
theorem compare?_eq_some_lt_iff : compare? left right = some .lt ↔ left.Below right := by
  constructor
  · intro h
    cases left <;> cases right <;> simp only [compare?, Option.some.injEq, reduceCtorEq] at h
    case boolean.boolean first second =>
      obtain ⟨rfl, rfl⟩ := (compare_boolean_eq_lt_iff first second).1 h
      exact .boolean
    case integer.integer first second =>
      exact .integer ((compare_integer_eq_lt_iff first second).1 h)
    case string.string first second =>
      exact .string ((Text.compare_eq_lt_iff first second).1 h)
  · intro h
    cases h with
    | boolean => rfl
    | @integer first second h =>
      exact congrArg some ((compare_integer_eq_lt_iff first second).2 h)
    | @string first second h =>
      exact congrArg some ((Text.compare_eq_lt_iff first second).2 h)

/-- Literals are compared as greater just when the second one is below the first. -/
theorem compare?_eq_some_gt_iff : compare? left right = some .gt ↔ right.Below left := by
  rw [← compare?_eq_some_lt_iff, compare?_swap left right]
  cases compare? left right with
  | none => simp
  | some order => cases order <;> simp

/-- A comparison of literals has an outcome when they have an order. -/
theorem compare_eq_ok_iff : left.compare right = .ok order ↔ compare? left right = some order := by
  unfold Literal.compare
  cases compare? left right <;> simp

/-- There is an order between literals of one kind. -/
theorem exists_compare_eq_ok_iff :
    (∃ order, left.compare right = .ok order) ↔ left.kind = right.kind := by
  simp only [compare_eq_ok_iff, ← compare?_isSome_iff, Option.isSome_iff_exists]

/-- Literals of different kinds are mismatched. -/
theorem compare_of_kind_ne (h : left.kind ≠ right.kind) :
    left.compare right = .error (.mismatch left right) := by
  have hnone : compare? left right = none := by
    rw [← Option.not_isSome_iff_eq_none, compare?_isSome_iff]
    exact h
  rw [Literal.compare, hnone]

/-- The order of two literals is reversed with their places. -/
theorem compare_eq_ok_swap_iff :
    right.compare left = .ok order ↔ left.compare right = .ok order.swap := by
  rw [compare_eq_ok_iff, compare_eq_ok_iff, compare?_swap left right]
  cases compare? left right with
  | none => simp
  | some found => cases found <;> cases order <;> simp

end Literal

/-! ## The six comparisons -/

/-- The truth value of a comparison between two literals. -/
def Comparison.test (which : Comparison) (left right : Literal) : Except Fault Bool :=
  (Expression.binary (.literal left) (.comparison which) (.literal right)).evaluate

/-- The six comparisons of two literals are settled by one order between them. -/
structure Literal.Consistent (left right : Literal) : Prop where
  equal_iff : Comparison.equal.test left right = .ok true ↔ left = right
  less_iff : Comparison.less.test left right = .ok true ↔ left.Below right
  greater_iff : Comparison.greater.test left right = .ok true ↔ right.Below left
  notEqual_eq : Comparison.notEqual.test left right = (Comparison.equal.test left right).map not
  greaterEqual_eq :
    Comparison.greaterEqual.test left right = (Comparison.less.test left right).map not
  lessEqual_eq :
    Comparison.lessEqual.test left right = (Comparison.greater.test left right).map not
  less_eq_greater : left.kind = right.kind →
    Comparison.less.test left right = Comparison.greater.test right left
  total : left.kind = right.kind → ∀ which : Comparison, ∃ value, which.test left right = .ok value
  mismatch : left.kind ≠ right.kind →
    ∀ which : Comparison, which.test left right = .error (.mismatch left right)

variable {left right : Literal}

/-- A comparison looks at the order of its literals only. -/
theorem Comparison.test_eq (which : Comparison) :
    which.test left right = (left.compare right).map which.holds :=
  Expression.evaluate_comparison_literals left right which

/-- A comparison that holds in one order only tells that order. -/
theorem Comparison.test_eq_ok_true_iff {which : Comparison} (order : Ordering)
    (h : ∀ found, which.holds found = true ↔ found = order) :
    which.test left right = .ok true ↔ left.compare right = .ok order := by
  rw [which.test_eq]
  cases left.compare right with
  | error fault => simp [Except.map]
  | ok found => simp [Except.map, h found]

/-- A comparison that holds where another one does not is its negation, also where both fail. -/
theorem Comparison.test_eq_map_not {which other : Comparison}
    (h : ∀ order, which.holds order = !other.holds order) :
    which.test left right = (other.test left right).map not := by
  rw [which.test_eq, other.test_eq]
  cases left.compare right with
  | error fault => rfl
  | ok order => exact congrArg Except.ok (h order)

/-- A comparison of literals of different kinds is mismatched. -/
theorem Comparison.test_of_kind_ne (which : Comparison) (h : left.kind ≠ right.kind) :
    which.test left right = .error (.mismatch left right) := by
  rw [which.test_eq, Literal.compare_of_kind_ne h]
  rfl

/-- A comparison of literals of the same kind has a value. -/
theorem Comparison.exists_test_eq_ok (which : Comparison) (h : left.kind = right.kind) :
    ∃ value, which.test left right = .ok value := by
  obtain ⟨order, horder⟩ := Literal.exists_compare_eq_ok_iff.2 h
  exact ⟨which.holds order, by rw [which.test_eq, horder]; rfl⟩

/-- The six comparisons of two literals agree with each other. -/
theorem Literal.consistent (left right : Literal) : left.Consistent right where
  equal_iff := by
    rw [Comparison.test_eq_ok_true_iff .eq (by decide), compare_eq_ok_iff,
      compare?_eq_some_eq_iff]
  less_iff := by
    rw [Comparison.test_eq_ok_true_iff .lt (by decide), compare_eq_ok_iff,
      compare?_eq_some_lt_iff]
  greater_iff := by
    rw [Comparison.test_eq_ok_true_iff .gt (by decide), compare_eq_ok_iff,
      compare?_eq_some_gt_iff]
  notEqual_eq := Comparison.test_eq_map_not (by decide)
  greaterEqual_eq := Comparison.test_eq_map_not (by decide)
  lessEqual_eq := Comparison.test_eq_map_not (by decide)
  less_eq_greater := by
    intro h
    obtain ⟨order, horder⟩ := exists_compare_eq_ok_iff.2 h
    have hswap : right.compare left = .ok order.swap := by
      rw [compare_eq_ok_swap_iff, Ordering.swap_swap, horder]
    rw [Comparison.test_eq, Comparison.test_eq, horder, hswap]
    cases order <;> rfl
  total := fun h which => which.exists_test_eq_ok h
  mismatch := fun h which => which.test_of_kind_ne h

/-! ## What comparisons say -/

/-- What a comparison says of two members of an ordered type. -/
def Comparison.Relates {α : Type} [LT α] : Comparison → α → α → Prop
  | .equal, left, right => left = right
  | .notEqual, left, right => left ≠ right
  | .greater, left, right => right < left
  | .less, left, right => left < right
  | .greaterEqual, left, right => ¬ left < right
  | .lessEqual, left, right => ¬ right < left

instance {α : Type} [LT α] [DecidableEq α] [DecidableLT α] (which : Comparison) (left right : α) :
    Decidable (which.Relates left right) :=
  match which with
  | .equal => inferInstanceAs (Decidable (left = right))
  | .notEqual => inferInstanceAs (Decidable (left ≠ right))
  | .greater => inferInstanceAs (Decidable (right < left))
  | .less => inferInstanceAs (Decidable (left < right))
  | .greaterEqual => inferInstanceAs (Decidable (¬ left < right))
  | .lessEqual => inferInstanceAs (Decidable (¬ right < left))

/-- A comparison of two literals whose order is that of two members of a type is the comparison of
those. -/
theorem Comparison.test_relates {α : Type} [LT α] (which : Comparison) {left right : Literal}
    {first second : α} (hkind : left.kind = right.kind) (heq : left = right ↔ first = second)
    (hless : left.Below right ↔ first < second) (hgreater : right.Below left ↔ second < first) :
    ∃ value, which.test left right = .ok value ∧
      (value = true ↔ which.Relates first second) := by
  obtain ⟨order, horder⟩ := Literal.exists_compare_eq_ok_iff.2 hkind
  refine ⟨which.holds order, by rw [which.test_eq, horder]; rfl, ?_⟩
  rw [Literal.compare_eq_ok_iff] at horder
  have heq' : order = .eq ↔ first = second := by
    rw [← heq, ← Literal.compare?_eq_some_eq_iff, horder, Option.some.injEq]
  have hless' : order = .lt ↔ first < second := by
    rw [← hless, ← Literal.compare?_eq_some_lt_iff, horder, Option.some.injEq]
  have hgreater' : order = .gt ↔ second < first := by
    rw [← hgreater, ← Literal.compare?_eq_some_gt_iff, horder, Option.some.injEq]
  cases which <;> simp only [Relates, ← heq', ← hless', ← hgreater', ne_eq] <;>
    cases order <;> decide

/-- A comparison of two literals of one kind is settled by whether it relates them. -/
theorem Comparison.exists_test_relates (which : Comparison) (h : left.kind = right.kind) :
    ∃ value, which.test left right = .ok value ∧ (value = true ↔ which.Relates left right) :=
  which.test_relates h Iff.rfl Iff.rfl Iff.rfl

/-- Two literals of one kind, and no others, have an order. It is total, in its equality that of
literals, and on strings the lexicographic order of code points and of bytes. The six comparisons
are views of it. -/
theorem compare_total_order (left right third : Literal) :
    ((∃ order, left.compare right = .ok order) ↔ left.kind = right.kind) ∧
      (left.compare right = .ok .eq ↔ left = right) ∧
      (left.compare right = .ok .lt ↔ left.Below right) ∧
      (∀ order, right.compare left = .ok order ↔ left.compare right = .ok order.swap) ∧
      (left.compare right = .ok .lt → right.compare third = .ok .lt →
        left.compare third = .ok .lt) ∧
      (∀ first second : Text,
        ((Literal.string first).compare (.string second) = .ok .lt ↔
          codePoints first < codePoints second) ∧
        (codePoints first < codePoints second ↔ bytes first < bytes second)) ∧
      left.Consistent right := by
  have hbelow (first second : Literal) : first.compare second = .ok .lt ↔ first.Below second := by
    rw [Literal.compare_eq_ok_iff, Literal.compare?_eq_some_lt_iff]
  refine ⟨Literal.exists_compare_eq_ok_iff, ?_, hbelow left right, ?_, ?_, ?_,
    left.consistent right⟩
  · rw [Literal.compare_eq_ok_iff, Literal.compare?_eq_some_eq_iff]
  · intro order
    exact Literal.compare_eq_ok_swap_iff
  · intro hleft hright
    exact (hbelow left third).2 (((hbelow _ _).1 hleft).trans ((hbelow _ _).1 hright))
  · intro first second
    refine ⟨?_, Text.codePoints_lt_iff_bytes_lt first second⟩
    rw [hbelow, Literal.below_string_iff]

/-- Strings of characters with two, three and four bytes are in the order of their lengths, and an
integer is in none with a truth value. -/
theorem compare_total_order_bytes :
    let two := Literal.string "é".toList
    let three := Literal.string "€".toList
    let four := Literal.string "😀".toList
    (two.compare three = .ok .lt ∧ three.compare four = .ok .lt ∧ two.compare four = .ok .lt) ∧
      (two.kind = four.kind ∧
        Comparison.less.test two four = Comparison.greater.test four two) ∧
      ((Literal.boolean true).kind ≠ (Literal.integer 1).kind ∧
        ∀ which : Comparison, which.test (.boolean true) (.integer 1) =
          .error (.mismatch (.boolean true) (.integer 1))) := by
  intro two three four
  have hlow : two.compare three = .ok .lt := Literal.compare_eq_ok_iff.2 (by decide +kernel)
  have hhigh : three.compare four = .ok .lt := Literal.compare_eq_ok_iff.2 (by decide +kernel)
  obtain ⟨-, -, -, -, htrans, -, -⟩ := compare_total_order two three four
  obtain ⟨-, -, -, -, -, -, hconsistent⟩ := compare_total_order two four four
  obtain ⟨-, -, -, -, -, -, hmixed⟩ :=
    compare_total_order (.boolean true) (.integer 1) (.integer 1)
  have hdifferent : (Literal.boolean true).kind ≠ (Literal.integer 1).kind := by decide
  exact ⟨⟨hlow, hhigh, htrans hlow hhigh⟩, ⟨rfl, hconsistent.less_eq_greater rfl⟩,
    hdifferent, hmixed.mismatch hdifferent⟩

end TypedVars.Condition
