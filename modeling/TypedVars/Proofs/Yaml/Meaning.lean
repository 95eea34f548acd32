import TypedVars.Proofs.Yaml.Runs

/-!
# What a document stands for

A node stands for a value by itself, without any bound on its size: a scalar by its tag and its
spelling, a collection by its parts, an alias by the node of its anchor. A scalar that does not suit
its tag, and whatever has a tag that names a variant, stands for nothing. Reading a document gives
just that, within three bounds: whole numbers fit sixty-four bits, collections are nested no deeper
than the limit, and no more aliases are followed than allowed. Beyond a bound nothing is read.
-/

set_option autoImplicit false

namespace TypedVars.Yaml

/-! ## Meanings -/

/-- The node that is read in the place of a node, and how many aliases are followed to it. -/
inductive Refers (nodes : List (Nat × Node)) : Node → Node → Nat → Prop
  | itself {node : Node} (h : ∀ target, node ≠ .alias target) : Refers nodes node node 0
  | alias {target : Nat} {node : Node} (h : nodes.lookup target = some node) :
      Refers nodes (.alias target) node 1

/-- The value that a node stands for, and how many aliases are followed in reading it. -/
inductive Stands (nodes : List (Nat × Node)) : Node → Value → Nat → Prop
  | scalar {node : Node} {front : Front} {text : Text} {plain : Bool} {value : Value} {count : Nat}
      (refers : Refers nodes node (.scalar front text plain) count)
      (tag : front.namesVariant = false)
      (meaning : Value.ofScalar front.tag text plain = .ok value) : Stands nodes node value count
  | sequence {node : Node} {front : Front} {items : List Node} {values : List Value}
      {count inner : Nat} (refers : Refers nodes node (.sequence front items) count)
      (tag : front.namesVariant = false) (parts : Counted (Stands nodes) items values inner) :
      Stands nodes node (.sequence values) (count + inner)
  | mapping {node : Node} {front : Front} {pairs : List (Node × Node)}
      {values : List (Value × Value)} {count inner : Nat}
      (refers : Refers nodes node (.mapping front pairs) count)
      (tag : front.namesVariant = false)
      (parts : Counted (Paired (Stands nodes) (Stands nodes)) pairs values inner) :
      Stands nodes node (.mapping values) (count + inner)

/-- The text of a name, which may be any scalar, with any tag. -/
inductive Names (nodes : List (Nat × Node)) : Node → Text → Nat → Prop
  | mk {node : Node} {front : Front} {text : Text} {plain : Bool} {count : Nat}
      (refers : Refers nodes node (.scalar front text plain) count) : Names nodes node text count

section

variable {nodes : List (Nat × Node)} {front : Front}

/-- A scalar names its text, and no alias is followed. -/
theorem Names.ofScalar (text : Text) (plain : Bool) :
    Names nodes (.scalar front text plain) text 0 :=
  .mk (.itself (by simp))

/-- A scalar stands for the value of its spelling, and no alias is followed. -/
theorem Stands.ofScalar {text : Text} {plain : Bool} {value : Value}
    (tag : front.namesVariant = false) (h : Value.ofScalar front.tag text plain = .ok value) :
    Stands nodes (.scalar front text plain) value 0 :=
  .scalar (.itself (by simp)) tag h

/-- A sequence stands for the values of its items, with the aliases that they follow. -/
theorem Stands.ofSequence {items : List Node} {values : List Value} {count : Nat}
    (tag : front.namesVariant = false) (parts : Counted (Stands nodes) items values count) :
    Stands nodes (.sequence front items) (.sequence values) count :=
  Nat.zero_add count ▸ .sequence (.itself (by simp)) tag parts

/-- A mapping stands for the values of its pairs, with the aliases that they follow. -/
theorem Stands.ofMapping {pairs : List (Node × Node)} {values : List (Value × Value)} {count : Nat}
    (tag : front.namesVariant = false)
    (parts : Counted (Paired (Stands nodes) (Stands nodes)) pairs values count) :
    Stands nodes (.mapping front pairs) (.mapping values) count :=
  Nat.zero_add count ▸ .mapping (.itself (by simp)) tag parts

end

/-- A value has no whole number beyond sixty-four bits, and no collections nested deeper than
`depth`. -/
def Value.FitsIn : Nat → Value → Prop
  | 0, .sequence _ => False
  | 0, .mapping _ => False
  | depth + 1, .sequence items => ∀ item ∈ items, FitsIn depth item
  | depth + 1, .mapping pairs => ∀ pair ∈ pairs, FitsIn depth pair.1 ∧ FitsIn depth pair.2
  | _, .natural value => value < Nat.pow 2 64
  | _, .negative magnitude => magnitude ≤ Nat.pow 2 63
  | _, _ => True

/-- A node stands for a value that fits. -/
def StandsIn (nodes : List (Nat × Node)) (depth : Nat) : Node → Value → Nat → Prop :=
  fun node value count => Stands nodes node value count ∧ value.FitsIn depth

/-! ## Readings -/

/-- An alias is followed to the node of its anchor as long as that is allowed. -/
theorem run_follow_alias (anchors : Anchors) (target start : Nat) :
    (follow anchors (.alias target)).run start =
      if anchors.limit ≤ start then .error .tooManyAliases
      else (anchors.nodes.lookup target).elim (.error .notWellFormed) fun node =>
        .ok (node, start + 1) := by
  show (ite (anchors.limit ≤ start) _ _ : Reading Node).run start = _
  split
  · rfl
  · cases anchors.nodes.lookup target <;> rfl

/-- A node is read in the place of the one that refers to it. -/
theorem reads_follow (anchors : Anchors) :
    Reads anchors.limit (follow anchors) (Refers anchors.nodes) := by
  intro node found start later hstart
  have hitself (hnode : ∀ target, node ≠ .alias target)
      (hfollow : follow anchors node = pure node) :
      (follow anchors node).run start = .ok (found, later) ↔
        ∃ count, Refers anchors.nodes node found count ∧ later = start + count ∧
          later ≤ anchors.limit := by
    rw [hfollow, run_pure_eq_ok_iff]
    constructor
    · rintro ⟨rfl, rfl⟩
      exact ⟨0, .itself hnode, rfl, hstart⟩
    · rintro ⟨count, hrefers, rfl, -⟩
      cases hrefers with
      | itself => exact ⟨rfl, rfl⟩
      | «alias» => exact absurd rfl (hnode _)
  cases node with
  | scalar front text plain => exact hitself (by simp) rfl
  | sequence front items => exact hitself (by simp) rfl
  | mapping front pairs => exact hitself (by simp) rfl
  | «alias» target =>
    rw [run_follow_alias]
    constructor
    · intro h
      split at h
      · simp at h
      next hlimit =>
      cases hlookup : anchors.nodes.lookup target with
      | none => simp [hlookup] at h
      | some node =>
        rw [hlookup] at h
        obtain ⟨rfl, rfl⟩ := Prod.mk.inj (Except.ok.inj h)
        exact ⟨1, .alias hlookup, rfl, by omega⟩
    · rintro ⟨count, hrefers, rfl, hlimit⟩
      cases hrefers with
      | itself h => exact absurd rfl (h target)
      | «alias» hlookup =>
        rw [if_neg (by omega), hlookup]
        rfl

/-- A node is read as a value in the place of another one unless its tag names a variant. -/
theorem reads_followValue (anchors : Anchors) (path : Path) :
    Reads anchors.limit (followValue anchors path) fun node found count =>
      Refers anchors.nodes node found count ∧ found.front.namesVariant = false := by
  intro node found start later hstart
  unfold followValue
  rw [(reads_follow anchors).bind_iff hstart]
  constructor
  · rintro ⟨met, count, hrefers, hmid, hchecked⟩
    split at hchecked
    · exact absurd hchecked run_throw_ne_ok
    next htag =>
      obtain ⟨rfl, rfl⟩ := run_pure_eq_ok_iff.1 hchecked
      exact ⟨count, ⟨hrefers, Bool.eq_false_iff.2 htag⟩, rfl, hmid⟩
  · rintro ⟨count, ⟨hrefers, htag⟩, rfl, hlimit⟩
    refine ⟨found, count, hrefers, hlimit, ?_⟩
    rw [htag]
    rfl

/-- A node is read as a name when it is a scalar. -/
theorem reads_readName (anchors : Anchors) :
    Reads anchors.limit (readName anchors) (Names anchors.nodes) := by
  intro node name start later hstart
  unfold readName
  rw [(reads_follow anchors).bind_iff hstart]
  constructor
  · rintro ⟨found, count, hrefers, hmid, hname⟩
    cases found with
    | scalar front text plain =>
      obtain ⟨rfl, rfl⟩ := run_pure_eq_ok_iff.1 hname
      exact ⟨count, .mk hrefers, rfl, hmid⟩
    | sequence front items => exact absurd hname run_throw_ne_ok
    | mapping front pairs => exact absurd hname run_throw_ne_ok
    | «alias» target => exact absurd hname run_throw_ne_ok
  · rintro ⟨count, ⟨hrefers⟩, rfl, hlimit⟩
    exact ⟨_, count, hrefers, hlimit, rfl⟩

/-- A value with no parts. -/
def Value.IsAtom : Value → Prop
  | .sequence _ => False
  | .mapping _ => False
  | _ => True

/-- A whole number has no parts. -/
theorem isAtom_of_wholeNumber? {text : Text} {value : Value} (h : wholeNumber? text = some value) :
    value.IsAtom := by
  unfold wholeNumber? at h
  split at h <;> obtain ⟨number, -, rfl⟩ := Option.map_eq_some_iff.1 h <;> trivial

/-- A plain scalar stands for a value with no parts. -/
theorem isAtom_ofPlain (text : Text) : (Value.ofPlain text).IsAtom := by
  unfold Value.ofPlain
  split
  · trivial
  · split
    · trivial
    · split
      · next number hnumber => exact isAtom_of_wholeNumber? hnumber
      · split <;> trivial

/-- A scalar without a tag stands for a value with no parts. -/
theorem isAtom_ofStyle (text : Text) (plain : Bool) : (Value.ofStyle text plain).IsAtom := by
  cases plain
  · trivial
  · exact isAtom_ofPlain text

/-- A scalar that suits its core tag stands for a value with no parts. -/
theorem isAtom_of_coreValue? {core : CoreTag} {text : Text} {value : Value}
    (h : core.value? text = some value) : value.IsAtom := by
  cases core with
  | boolean =>
    obtain ⟨truth, -, rfl⟩ := Option.map_eq_some_iff.1 h
    trivial
  | integer => exact isAtom_of_wholeNumber? h
  | float =>
    obtain ⟨number, -, rfl⟩ := Option.map_eq_some_iff.1 h
    trivial
  | null =>
    obtain ⟨-, heq⟩ := Option.ite_none_right_eq_some.1 h
    obtain rfl := Option.some.inj heq
    trivial

/-- A scalar stands for a value with no parts, if for any. -/
theorem isAtom_of_ofScalar {tag : Option Tag} {text : Text} {plain : Bool} {value : Value}
    (h : Value.ofScalar tag text plain = .ok value) : value.IsAtom := by
  unfold Value.ofScalar at h
  split at h
  · obtain rfl := Except.ok.inj h
    exact isAtom_ofStyle text plain
  · split at h
    · next core _ =>
      cases hcore : core.value? text with
      | none => simp [hcore] at h
      | some found =>
        rw [hcore] at h
        obtain rfl := Except.ok.inj h
        exact isAtom_of_coreValue? hcore
    · obtain rfl := Except.ok.inj h
      split
      · exact isAtom_ofStyle text plain
      · trivial

/-- A value with no parts fits at any depth unless it is too wide. -/
theorem Value.IsAtom.fitsIn_iff {value : Value} (h : value.IsAtom) (depth : Nat) :
    value.FitsIn depth ↔ value.wideDescription? = none := by
  cases value with
  | sequence items => exact h.elim
  | mapping pairs => exact h.elim
  | natural number =>
    have hfits : (Value.natural number).FitsIn depth ↔ number < Nat.pow 2 64 := by
      cases depth <;> exact Iff.rfl
    rw [hfits, wideDescription?]
    split
    · next hnarrow => exact iff_of_true hnarrow rfl
    · next hwide => exact iff_of_false hwide (by simp)
  | negative magnitude =>
    have hfits : (Value.negative magnitude).FitsIn depth ↔ magnitude ≤ Nat.pow 2 63 := by
      cases depth <;> exact Iff.rfl
    rw [hfits, wideDescription?]
    split
    · next hnarrow => exact iff_of_true hnarrow rfl
    · next hwide => exact iff_of_false hwide (by simp)
  | unit => cases depth <;> exact iff_of_true trivial rfl
  | boolean value => cases depth <;> exact iff_of_true trivial rfl
  | float value => cases depth <;> exact iff_of_true trivial rfl
  | string text => cases depth <;> exact iff_of_true trivial rfl

/-- A scalar has a value to read when it stands for one that fits. -/
theorem scalarValue_eq_ok_iff {tag : Option Tag} {text : Text} {plain : Bool} {value : Value}
    (depth : Nat) :
    scalarValue tag text plain = .ok value ↔
      Value.ofScalar tag text plain = .ok value ∧ value.FitsIn depth := by
  unfold scalarValue
  cases hmeaning : Value.ofScalar tag text plain with
  | error core => simp
  | ok found =>
    have hfits := (isAtom_of_ofScalar hmeaning).fitsIn_iff depth
    dsimp only
    cases hwide : found.wideDescription? with
    | some description =>
      refine iff_of_false (by simp) ?_
      rintro ⟨heq, hfound⟩
      obtain rfl := Except.ok.inj heq
      rw [hfits, hwide] at hfound
      simp at hfound
    | none =>
      constructor
      · intro heq
        obtain rfl := Except.ok.inj heq
        exact ⟨rfl, hfits.2 hwide⟩
      · rintro ⟨heq, -⟩
        obtain rfl := Except.ok.inj heq
        rfl

/-- A scalar is read as what it stands for, if that fits. -/
theorem run_readScalar_eq_ok_iff {path : Path} {front : Front} {text : Text} {plain : Bool}
    {value : Value} {start later : Nat} (depth : Nat) :
    (readScalar path front text plain).run start = .ok (value, later) ↔
      (Value.ofScalar front.tag text plain = .ok value ∧ value.FitsIn depth) ∧ later = start := by
  rw [← scalarValue_eq_ok_iff, readScalar]
  cases scalarValue front.tag text plain with
  | error problem => exact iff_of_false run_throw_ne_ok (by simp)
  | ok found => rw [run_pure_eq_ok_iff, Except.ok.injEq, eq_comm (a := start)]

/-- Items are read in turn when each is read as the value it stands for. -/
theorem reads_items {anchors : Anchors} {depth : Nat}
    (h : ∀ path, Reads anchors.limit (readValue anchors depth path) (StandsIn anchors.nodes depth))
    (path : Path) :
    Reads anchors.limit
      (fun items : List Node => items.zipIdx.mapM fun item =>
        readValue anchors depth (.item item.2 :: path) item.1)
      fun items values count => Counted (Stands anchors.nodes) items values count ∧
        ∀ value ∈ values, value.FitsIn depth := by
  simp only [← Counted.and]
  exact Reads.mapM_zipIdx fun i => h (.item i :: path)

/-- Pairs are read in turn when each key and each value is read as what it stands for. -/
theorem reads_pairs {anchors : Anchors} {depth : Nat}
    (h : ∀ path, Reads anchors.limit (readValue anchors depth path) (StandsIn anchors.nodes depth))
    (path : Path) :
    Reads anchors.limit
      (fun pairs : List (Node × Node) => pairs.mapM fun pair => do
        let key ← readValue anchors depth path pair.1
        let value ← readValue anchors depth (pair.1.step :: path) pair.2
        return (key, value))
      fun pairs values count =>
        Counted (Paired (Stands anchors.nodes) (Stands anchors.nodes)) pairs values count ∧
          ∀ value ∈ values, value.1.FitsIn depth ∧ value.2.FitsIn depth := by
  simp only [← Counted.and, ← Paired.and]
  exact ((h path).pair fun key => h (key.step :: path)).mapM

/-- A node is read as the value it stands for, if that fits. -/
theorem reads_readValue (anchors : Anchors) (depth : Nat) (path : Path) :
    Reads anchors.limit (readValue anchors depth path) (StandsIn anchors.nodes depth) := by
  -- on the depth, for all paths: the parts of a collection are read one level less deep
  induction depth generalizing path with
  | zero =>
    intro node value start later hstart
    rw [readValue, (reads_followValue anchors path).bind_iff hstart]
    constructor
    · rintro ⟨found, count, ⟨hrefers, htag⟩, hmid, hread⟩
      cases found with
      | scalar front text plain =>
        obtain ⟨⟨hmeaning, hfits⟩, rfl⟩ := (run_readScalar_eq_ok_iff 0).1 hread
        exact ⟨count, ⟨.scalar hrefers htag hmeaning, hfits⟩, rfl, hmid⟩
      | sequence front items => exact absurd hread run_throw_ne_ok
      | mapping front pairs => exact absurd hread run_throw_ne_ok
      | «alias» target => exact absurd hread run_throw_ne_ok
    · rintro ⟨count, ⟨hstands, hfits⟩, rfl, hlimit⟩
      cases hstands with
      | scalar hrefers htag hmeaning =>
        exact ⟨_, count, ⟨hrefers, htag⟩, hlimit,
          (run_readScalar_eq_ok_iff 0).2 ⟨⟨hmeaning, hfits⟩, rfl⟩⟩
      | sequence => exact hfits.elim
      | mapping => exact hfits.elim
  | succ depth ih =>
    intro node value start later hstart
    rw [readValue, (reads_followValue anchors path).bind_iff hstart]
    constructor
    · rintro ⟨found, count, ⟨hrefers, htag⟩, hmid, hread⟩
      cases found with
      | scalar front text plain =>
        obtain ⟨⟨hmeaning, hfits⟩, rfl⟩ := (run_readScalar_eq_ok_iff (depth + 1)).1 hread
        exact ⟨count, ⟨.scalar hrefers htag hmeaning, hfits⟩, rfl, hmid⟩
      | sequence front items =>
        obtain ⟨values, inner, ⟨hparts, hfits⟩, hstop, hpure⟩ :=
          ((reads_items ih path).bind_iff hmid).1 hread
        obtain ⟨rfl, rfl⟩ := run_pure_eq_ok_iff.1 hpure
        exact ⟨count + inner, ⟨.sequence hrefers htag hparts, hfits⟩, by omega, hstop⟩
      | mapping front pairs =>
        obtain ⟨values, inner, ⟨hparts, hfits⟩, hstop, hpure⟩ :=
          ((reads_pairs ih path).bind_iff hmid).1 hread
        obtain ⟨rfl, rfl⟩ := run_pure_eq_ok_iff.1 hpure
        exact ⟨count + inner, ⟨.mapping hrefers htag hparts, hfits⟩, by omega, hstop⟩
      | «alias» target => exact absurd hread run_throw_ne_ok
    · rintro ⟨total, ⟨hstands, hfits⟩, rfl, hlimit⟩
      cases hstands with
      | scalar hrefers htag hmeaning =>
        exact ⟨_, total, ⟨hrefers, htag⟩, hlimit,
          (run_readScalar_eq_ok_iff (depth + 1)).2 ⟨⟨hmeaning, hfits⟩, rfl⟩⟩
      | @sequence _ front items values count inner hrefers htag hparts =>
        refine ⟨_, count, ⟨hrefers, htag⟩, by omega, ?_⟩
        refine ((reads_items ih path).bind_iff (by omega)).2 ⟨values, inner, ⟨hparts, hfits⟩, ?_⟩
        exact ⟨by omega, run_pure_eq_ok_iff.2 ⟨rfl, by omega⟩⟩
      | @mapping _ front pairs values count inner hrefers htag hparts =>
        refine ⟨_, count, ⟨hrefers, htag⟩, by omega, ?_⟩
        refine ((reads_pairs ih path).bind_iff (by omega)).2 ⟨values, inner, ⟨hparts, hfits⟩, ?_⟩
        exact ⟨by omega, run_pure_eq_ok_iff.2 ⟨rfl, by omega⟩⟩

/-! ## Documents -/

namespace Node

/-- A mapping at the root of a document, by its entries in order, names with the values that they
stand for, and the number of aliases in them. -/
def Describes (root : Node) (entries : List (Text × Value)) (count : Nat) : Prop :=
  ∃ front pairs, root = .mapping front pairs ∧
    Counted (Paired (Names root.anchored.reverse) (Stands root.anchored.reverse)) pairs entries
      count

/-- The entries of a document and the aliases in them keep within the bounds of reading: whole
numbers have sixty-four bits, one hundred and twenty-seven collections may be nested inside the
root, and for each mark of the document a hundred aliases may be followed. -/
def Admits (root : Node) (entries : List (Text × Value)) (count : Nat) : Prop :=
  (∀ entry ∈ entries, entry.2.FitsIn 127) ∧ count ≤ 100 * root.size

/-- An entry is read as its name and what its value stands for, if that fits. -/
theorem reads_readEntry (anchors : Anchors) :
    Reads anchors.limit (readEntry anchors) fun pair entry count =>
      Paired (Names anchors.nodes) (Stands anchors.nodes) pair entry count ∧
        entry.2.FitsIn depthLimit := by
  have hnames : Reads anchors.limit (readName anchors) fun node name count =>
      Names anchors.nodes node name count ∧ True := by
    simpa using reads_readName anchors
  have hvalues (key : Node) : Reads anchors.limit (readValue anchors depthLimit [key.step])
      fun node value count => Stands anchors.nodes node value count ∧ value.FitsIn depthLimit :=
    reads_readValue anchors depthLimit [key.step]
  have hentry := hnames.pair hvalues
  simp only [Paired.and, true_and] at hentry
  exact hentry

/-- What is read of a document is all that it describes, when that keeps within the bounds. -/
theorem entries_eq_ok_iff {root : Node} {front : Front} {pairs : List (Node × Node)}
    (hroot : root = .mapping front pairs) (entries : List (Text × Value)) :
    root.entries = .ok entries ↔
      ∃ count, root.Describes entries count ∧ root.Admits entries count := by
  subst hroot
  have hreads := (reads_readEntry (Anchors.ofRoot (.mapping front pairs))).mapM pairs entries 0
  have hrun (reading : Reading (List (Text × Value))) :
      reading.run' 0 = .ok entries ↔ ∃ later, reading.run 0 = .ok (entries, later) := by
    rw [run'_eq]
    cases reading.run 0 with
    | error fault => simp [Except.map]
    | ok read =>
      obtain ⟨found, later⟩ := read
      simp [Except.map]
  unfold Node.entries
  rw [hrun]
  constructor
  · rintro ⟨later, hread⟩
    obtain ⟨count, hcounted, rfl, hlimit⟩ := (hreads later (Nat.zero_le _)).1 hread
    obtain ⟨hparts, hfits⟩ := Counted.and.1 hcounted
    refine ⟨count, ⟨front, pairs, rfl, hparts⟩, hfits, ?_⟩
    rwa [Nat.zero_add] at hlimit
  · rintro ⟨count, ⟨_, _, heq, hparts⟩, hfits, hlimit⟩
    obtain ⟨rfl, rfl⟩ := Node.mapping.inj heq
    refine ⟨0 + count, (hreads _ (Nat.zero_le _)).2 ⟨count, ?_, rfl, ?_⟩⟩
    · exact Counted.and.2 ⟨hparts, hfits⟩
    · rwa [Nat.zero_add]

end Node

end TypedVars.Yaml
