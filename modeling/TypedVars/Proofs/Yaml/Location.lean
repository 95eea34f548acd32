import TypedVars.Proofs.Yaml.Meaning

/-!
# Where a reading stops

A fault of a document names a node by its path and its position. The steps of the path lead from the
root through items and values to the node, and aliases are followed on the way. The node is such that
reading has to stop there, and it is the first such node: whatever stands in front of it, on each
level of the document, stands for values within the bounds of reading.
-/

set_option autoImplicit false

namespace TypedVars.Yaml

/-- What keeps a node from being a value. -/
inductive Node.BarsValue : Node → Problem → Prop
  | variant {node : Node} (h : node.front.namesVariant = true) : BarsValue node .variant
  | misspelt {front : Front} {text : Text} {plain : Bool} {core : CoreTag}
      (h : Value.ofScalar front.tag text plain = .error core) :
      BarsValue (.scalar front text plain) (.misspelt text core)
  | tooWide {front : Front} {text description : Text} {plain : Bool} {value : Value}
      (h : Value.ofScalar front.tag text plain = .ok value)
      (wide : value.wideDescription? = some description) :
      BarsValue (.scalar front text plain) (.tooWide description)

/-- What keeps a node from being a name. -/
inductive Node.BarsName : Node → Problem → Prop
  | sequence {front : Front} {items : List Node} :
      BarsName (.sequence front items) (.noName "sequence".toList)
  | mapping {front : Front} {pairs : List (Node × Node)} :
      BarsName (.mapping front pairs) (.noName "map".toList)

/-- Where the reading of a node as a value has to stop: the path to that place, its position and the
problem there. All that is read in front of it stands for values, and keys have the path of their
mapping. -/
inductive Stops (nodes : List (Nat × Node)) :
    Nat → Path → Node → Path → Position → Problem → Prop
  | itself {depth : Nat} {path : Path} {node found : Node} {count : Nat} {problem : Problem}
      (refers : Refers nodes node found count) (bars : found.BarsValue problem) :
      Stops nodes depth path node path found.front.position problem
  | item {depth : Nat} {path below : Path} {position : Position} {problem : Problem}
      {node item : Node} {front : Front} {earlier later : List Node} {values : List Value}
      {count before : Nat}
      (refers : Refers nodes node (.sequence front (earlier ++ item :: later)) count)
      (tag : front.namesVariant = false)
      (read : Counted (StandsIn nodes depth) earlier values before)
      (inner : Stops nodes depth (.item earlier.length :: path) item below position problem) :
      Stops nodes (depth + 1) path node below position problem
  | key {depth : Nat} {path below : Path} {position : Position} {problem : Problem}
      {node key value : Node} {front : Front} {earlier later : List (Node × Node)}
      {values : List (Value × Value)} {count before : Nat}
      (refers : Refers nodes node (.mapping front (earlier ++ (key, value) :: later)) count)
      (tag : front.namesVariant = false)
      (read : Counted (Paired (StandsIn nodes depth) (StandsIn nodes depth)) earlier values before)
      (inner : Stops nodes depth path key below position problem) :
      Stops nodes (depth + 1) path node below position problem
  | value {depth : Nat} {path below : Path} {position : Position} {problem : Problem}
      {node key value : Node} {front : Front} {earlier later : List (Node × Node)}
      {values : List (Value × Value)} {name : Value} {count before followed : Nat}
      (refers : Refers nodes node (.mapping front (earlier ++ (key, value) :: later)) count)
      (tag : front.namesVariant = false)
      (read : Counted (Paired (StandsIn nodes depth) (StandsIn nodes depth)) earlier values before)
      (keyRead : StandsIn nodes depth key name followed)
      (inner : Stops nodes depth (key.step :: path) value below position problem) :
      Stops nodes (depth + 1) path node below position problem

/-- The first problem in a document, at a path and a position: with the name of an entry, or in its
value. All entries in front of it have names and stand for values. -/
inductive Node.Locates (root : Node) : Path → Position → Problem → Prop
  | name {front : Front} {earlier later : List (Node × Node)} {entries : List (Text × Value)}
      {key value found : Node} {before count : Nat} {problem : Problem}
      (mapping : root = .mapping front (earlier ++ (key, value) :: later))
      (read : Counted (Paired (Names root.anchored.reverse) (StandsIn root.anchored.reverse 127))
        earlier entries before)
      (refers : Refers root.anchored.reverse key found count) (bars : found.BarsName problem) :
      Locates root [] found.front.position problem
  | value {front : Front} {earlier later : List (Node × Node)} {entries : List (Text × Value)}
      {key value : Node} {name : Text} {before count : Nat} {path : Path} {position : Position}
      {problem : Problem} (mapping : root = .mapping front (earlier ++ (key, value) :: later))
      (read : Counted (Paired (Names root.anchored.reverse) (StandsIn root.anchored.reverse 127))
        earlier entries before)
      (named : Names root.anchored.reverse key name count)
      (stops : Stops root.anchored.reverse 127 [key.step] value path position problem) :
      Locates root path position problem

/-! ## Readings -/

variable {anchors : Anchors} {path below : Path} {position : Position} {problem : Problem}
  {start : Nat}

/-- Following an alias finds no problem with a node. -/
theorem run_follow_ne_node {node : Node} :
    (follow anchors node).run start ≠ .error (.node path position problem) := by
  cases node with
  | scalar front text plain => exact run_pure_ne_error
  | sequence front items => exact run_pure_ne_error
  | mapping front pairs => exact run_pure_ne_error
  | «alias» target =>
    rw [run_follow_alias]
    split
    · simp
    · cases anchors.nodes.lookup target <;> simp

/-- A node is refused before it is read only for a tag that names a variant. -/
theorem stops_of_run_followValue (hstart : start ≤ anchors.limit) {node : Node}
    (h : (followValue anchors path node).run start = .error (.node below position problem))
    (depth : Nat) : Stops anchors.nodes depth path node below position problem := by
  rw [followValue, (reads_follow anchors).bind_eq_error_iff hstart] at h
  obtain hfollow | ⟨found, count, hrefers, -, hchecked⟩ := h
  · exact absurd hfollow run_follow_ne_node
  · split at hchecked
    next hvariant =>
      obtain ⟨rfl, rfl, rfl⟩ := ReadFault.node.inj (Except.error.inj hchecked)
      exact .itself hrefers (.variant hvariant)
    next => exact absurd hchecked run_pure_ne_error

/-- A scalar is refused at its own place for what keeps it from being a value. -/
theorem stops_of_run_readScalar {node : Node} {front : Front} {text : Text} {plain : Bool}
    {count : Nat} (hrefers : Refers anchors.nodes node (.scalar front text plain) count)
    (h : (readScalar path front text plain).run start = .error (.node below position problem))
    (depth : Nat) : Stops anchors.nodes depth path node below position problem := by
  unfold readScalar at h
  split at h
  · exact absurd h run_pure_ne_error
  next found hproblem =>
    obtain ⟨rfl, rfl, rfl⟩ := ReadFault.node.inj (Except.error.inj h)
    refine .itself hrefers ?_
    unfold scalarValue at hproblem
    split at hproblem
    next core hcore =>
      obtain rfl := Except.error.inj hproblem
      exact .misspelt hcore
    next value hvalue =>
      split at hproblem
      next description hwide =>
        obtain rfl := Except.error.inj hproblem
        exact .tooWide hvalue hwide
      next => simp at hproblem

/-- A problem in reading a node as a value is the first one on the way. -/
theorem stops_of_run_readValue {depth : Nat} {node : Node} (hstart : start ≤ anchors.limit)
    (h : (readValue anchors depth path node).run start = .error (.node below position problem)) :
    Stops anchors.nodes depth path node below position problem := by
  -- the limit of aliases is kept on the way, so that what has been read in front is known to stand
  -- for values
  induction depth generalizing path node start with
  | zero =>
    rw [readValue, (reads_followValue anchors path).bind_eq_error_iff hstart] at h
    obtain hfollow | ⟨found, count, ⟨hrefers, -⟩, -, hread⟩ := h
    · exact stops_of_run_followValue hstart hfollow 0
    cases found with
    | scalar front text plain => exact stops_of_run_readScalar hrefers hread 0
    | sequence front items => exact absurd (Except.error.inj hread) (by simp)
    | mapping front pairs => exact absurd (Except.error.inj hread) (by simp)
    | «alias» target => exact absurd (Except.error.inj hread) (by simp)
  | succ depth ih =>
    rw [readValue, (reads_followValue anchors path).bind_eq_error_iff hstart] at h
    obtain hfollow | ⟨found, count, ⟨hrefers, htag⟩, hmid, hread⟩ := h
    · exact stops_of_run_followValue hstart hfollow (depth + 1)
    cases found with
    | scalar front text plain => exact stops_of_run_readScalar hrefers hread (depth + 1)
    | sequence front items =>
      obtain hitems | ⟨values, stop, -, hpure⟩ := run_bind_eq_error_iff.1 hread
      · have hreads (i : Nat) := reads_readValue anchors depth (.item i :: path)
        obtain ⟨earlier, item, later, values, before, rfl, hbefore, hlimit, hitem⟩ :=
          Reads.exists_of_mapM_zipIdx_eq_error hreads hmid hitems
        exact .item hrefers htag hbefore (ih hlimit hitem)
      · exact absurd hpure run_pure_ne_error
    | mapping front pairs =>
      obtain hpairs | ⟨values, stop, -, hpure⟩ := run_bind_eq_error_iff.1 hread
      · have hkeys := reads_readValue anchors depth path
        have hreads := hkeys.pair fun key => reads_readValue anchors depth (key.step :: path)
        obtain ⟨earlier, ⟨key, value⟩, later, values, before, rfl, hbefore, hlimit, hpair⟩ :=
          hreads.exists_of_mapM_eq_error hmid hpairs
        obtain hkey | ⟨name, followed, hname, hbehind, hrest⟩ :=
          (hkeys.bind_eq_error_iff hlimit).1 hpair
        · exact .key hrefers htag hbefore (ih hlimit hkey)
        · obtain hvalue | ⟨_, _, -, hpure⟩ := run_bind_eq_error_iff.1 hrest
          · exact .value hrefers htag hbefore hname (ih hbehind hvalue)
          · exact absurd hpure run_pure_ne_error
      · exact absurd hpure run_pure_ne_error
    | «alias» target => exact absurd (Except.error.inj hread) (by simp)

/-- A problem in reading a name is one with the node that it refers to. -/
theorem exists_barsName_of_run_readName {node : Node} (hstart : start ≤ anchors.limit)
    (h : (readName anchors node).run start = .error (.node path position problem)) :
    path = [] ∧ ∃ found count, Refers anchors.nodes node found count ∧
      position = found.front.position ∧ found.BarsName problem := by
  rw [readName, (reads_follow anchors).bind_eq_error_iff hstart] at h
  obtain hfollow | ⟨found, count, hrefers, -, hname⟩ := h
  · exact absurd hfollow run_follow_ne_node
  cases found with
  | scalar front text plain => exact absurd hname run_pure_ne_error
  | sequence front items =>
    obtain ⟨rfl, rfl, rfl⟩ := ReadFault.node.inj (Except.error.inj hname)
    exact ⟨rfl, _, count, hrefers, rfl, .sequence⟩
  | mapping front pairs =>
    obtain ⟨rfl, rfl, rfl⟩ := ReadFault.node.inj (Except.error.inj hname)
    exact ⟨rfl, _, count, hrefers, rfl, .mapping⟩
  | «alias» target => exact absurd (Except.error.inj hname) (by simp)

/-- The fault of a mapping at the root names its first problem by path and position. -/
theorem Node.locates_of_entries {root : Node} {front : Front} {pairs : List (Node × Node)}
    (hroot : root = .mapping front pairs)
    (h : root.entries = .error (.node path position problem)) :
    root.Locates path position problem := by
  have hrun : (pairs.mapM (readEntry (Anchors.ofRoot root))).run 0 =
      .error (.node path position problem) := by
    subst hroot
    have hentries : ((pairs.mapM (readEntry _)).run 0).map Prod.fst = _ := h
    revert hentries
    cases (pairs.mapM (readEntry (Anchors.ofRoot (mapping front pairs)))).run 0 <;>
      simp [Except.map]
  have hnames := reads_readName (Anchors.ofRoot root)
  have hreads := hnames.pair fun key => reads_readValue (Anchors.ofRoot root) 127 [key.step]
  obtain ⟨earlier, ⟨key, value⟩, later, entries, before, rfl, hbefore, hlimit, hentry⟩ :=
    hreads.exists_of_mapM_eq_error (Nat.zero_le _) hrun
  obtain hname | ⟨name, count, hnamed, hbehind, hrest⟩ :=
    (hnames.bind_eq_error_iff hlimit).1 hentry
  · obtain ⟨rfl, found, count, hrefers, rfl, hbars⟩ := exists_barsName_of_run_readName hlimit hname
    exact .name hroot hbefore hrefers hbars
  · obtain hvalue | ⟨_, _, -, hpure⟩ := run_bind_eq_error_iff.1 hrest
    · exact .value hroot hbefore hnamed (stops_of_run_readValue hbehind hvalue)
    · exact absurd hpure run_pure_ne_error

end TypedVars.Yaml
