import TypedVars.Proofs.Yaml.Flow
import TypedVars.Proofs.Yaml.Meaning

/-!
# The nodes of compact objects

The tokens of a mapping in braces grow to a mapping of its pairs, wherever they stand. Growing
descends a few levels for each token, so the fuel that a text of these tokens has is enough.
-/

set_option autoImplicit false

namespace TypedVars.Yaml

/-- The first of some placed tokens is the first token with its position. -/
theorem exists_placed_eq_cons {placed : List Placed} {first : Token} {later : List Token}
    (h : placed.map Placed.token = first :: later) :
    ∃ position others, placed = ⟨first, position⟩ :: others ∧ others.map Placed.token = later := by
  obtain ⟨⟨token, position⟩, others, rfl, rfl, hothers⟩ := List.map_eq_cons_iff.1 h
  exact ⟨position, others, rfl, hothers⟩

/-- Tokens grow to a node that stands for a value without any alias, wherever they are placed, if
there is fuel enough. -/
structure Grows (tokens : List Token) (value : Value) : Prop where
  opens : ∃ first later, tokens = first :: later ∧ first ≠ .flowEntry ∧ first ≠ .flowMappingEnd
  grow : ∀ fuel, 8 * tokens.length ≤ fuel → ∀ inBlock underKey placed rest anchors handles,
    placed.map Placed.token = tokens →
    ∃ node, growNode fuel inBlock underKey ⟨placed ++ rest, anchors, handles⟩ =
        some (node, ⟨rest, anchors, handles⟩) ∧
      ∀ nodes, Stands nodes node value 0

/-- A scalar in quotation marks grows to a string. -/
theorem grows_string (text : Text) : Grows [.scalar text false] (.string text) := by
  refine ⟨⟨_, _, rfl, by simp, by simp⟩, ?_⟩
  intro fuel hfuel inBlock underKey placed rest anchors handles hplaced
  obtain ⟨fuel, rfl⟩ : ∃ k, fuel = k + 2 := ⟨fuel - 2, by simp at hfuel; omega⟩
  obtain ⟨position, _, rfl, hnil⟩ := exists_placed_eq_cons hplaced
  obtain rfl := List.map_eq_nil_iff.1 hnil
  exact ⟨_, rfl, fun _ => Stands.ofScalar rfl rfl⟩

/-- A pair of nodes writes a field: its key is the name, a string, and its value stands for that of
the field without any alias. -/
structure Writes (pair : Node × Node) (field : Text × Value) : Prop where
  key : ∃ position, pair.1 = .scalar ⟨position, none, none⟩ field.1 false
  value : ∀ nodes, Stands nodes pair.2 field.2 0

/-- The tokens of a pair grow to a pair that writes a field. -/
structure GrowsPair (part : Text × List Token) (field : Text × Value) : Prop where
  name : part.1 = field.1
  value : Grows part.2 field.2

section

variable {parts : List (Text × List Token)} {fields : List (Text × Value)}

/-- The key of a pair, its colon and its value are taken together. -/
theorem exists_growFlowPair {part : Text × List Token} {field : Text × Value}
    (h : GrowsPair part field) {fuel : Nat} (hfuel : 8 * part.2.length + 3 ≤ fuel)
    {placed : List Placed} (hplaced : placed.map Placed.token = pairTokens part)
    (rest : List Placed) (anchors : NameMap Nat) (handles : Handles) :
    ∃ pair, Writes pair field ∧
      growFlowPair (fuel + 1) ⟨placed ++ rest, anchors, handles⟩ =
        asPart (growFlowPairs fuel false ⟨rest, anchors, handles⟩) (pair :: ·) := by
  obtain ⟨fuel, rfl⟩ : ∃ k, fuel = k + 3 := ⟨fuel - 3, by omega⟩
  obtain ⟨name, tokens⟩ := part
  obtain ⟨_, value⟩ := field
  obtain ⟨rfl, ⟨first, later, rfl, hentry, hend⟩, hgrow⟩ := h
  obtain ⟨mark, _, rfl, hscalar⟩ := exists_placed_eq_cons hplaced
  obtain ⟨position, _, rfl, hcolon⟩ := exists_placed_eq_cons hscalar
  obtain ⟨colon, placed, rfl, hvalue⟩ := exists_placed_eq_cons hcolon
  obtain ⟨node, hnode, hstands⟩ :=
    hgrow (fuel + 1) (by simp at hfuel ⊢; omega) false false placed rest anchors handles hvalue
  have hfirst : (⟨placed ++ rest, anchors, handles⟩ : Supply).first? = some first := by
    obtain ⟨opening, others, rfl, -⟩ := exists_placed_eq_cons hvalue
    rfl
  have hoptional : growOptional (fuel + 2) false false [.flowEntry, .flowMappingEnd]
      ⟨placed ++ rest, anchors, handles⟩ = some (node, ⟨rest, anchors, handles⟩) := by
    rw [growOptional, if_neg, hnode]
    simp [Supply.atOneOf, hfirst, hentry, hend]
  have hgrown : growValue (fuel + 3) false [.flowEntry, .flowMappingEnd]
      ⟨⟨.value, colon⟩ :: (placed ++ rest), anchors, handles⟩ =
        some (node, ⟨rest, anchors, handles⟩) := hoptional
  refine ⟨(.scalar ⟨position, none, none⟩ name false, node), ⟨⟨position, rfl⟩, hstands⟩, ?_⟩
  show (growValue (fuel + 3) false [.flowEntry, .flowMappingEnd]
    ⟨⟨.value, colon⟩ :: (placed ++ rest), anchors, handles⟩ >>= _) = _
  rw [hgrown]
  rfl

/-- A pair starts with the mark of its key. -/
theorem first?_of_pairTokens {part : Text × List Token} {placed : List Placed}
    (h : placed.map Placed.token = pairTokens part) (rest : List Placed) (anchors : NameMap Nat)
    (handles : Handles) : (⟨placed ++ rest, anchors, handles⟩ : Supply).first? = some .key := by
  obtain ⟨mark, others, rfl, -⟩ := exists_placed_eq_cons h
  rfl

/-- Further pairs are grown up to the closing brace. -/
theorem exists_growFlowPairs (h : List.Forall₂ GrowsPair parts fields) {fuel : Nat}
    (hfuel : 8 * (furtherTokens parts).length + 1 ≤ fuel) {placed : List Placed}
    (hplaced : placed.map Placed.token = furtherTokens parts) (brace : Position)
    (rest : List Placed) (anchors : NameMap Nat) (handles : Handles) :
    ∃ pairs, List.Forall₂ Writes pairs fields ∧
      growFlowPairs fuel false ⟨placed ++ ⟨.flowMappingEnd, brace⟩ :: rest, anchors, handles⟩ =
        some (pairs, ⟨rest, anchors, handles⟩) := by
  induction h generalizing fuel placed with
  | nil =>
    obtain ⟨fuel, rfl⟩ : ∃ k, fuel = k + 1 := ⟨fuel - 1, by omega⟩
    obtain rfl := List.map_eq_nil_iff.1 hplaced
    exact ⟨[], .nil, rfl⟩
  | @cons part field parts fields hpair _ ih =>
    have hlength : (furtherTokens (part :: parts)).length =
        part.2.length + 4 + (furtherTokens parts).length := by
      simp only [furtherTokens, List.flatMap_cons, List.length_append, List.length_cons, pairTokens]
    rw [hlength] at hfuel
    obtain ⟨fuel, rfl⟩ : ∃ k, fuel = k + 2 := ⟨fuel - 2, by omega⟩
    obtain ⟨comma, _, rfl, hmembers⟩ := exists_placed_eq_cons hplaced
    obtain ⟨front, placed, rfl, hfront, hlater⟩ := List.map_eq_append_iff.1 hmembers
    have hvalue : 8 * part.2.length + 3 ≤ fuel := by omega
    have hothers : 8 * (furtherTokens parts).length + 1 ≤ fuel := by omega
    obtain ⟨pair, hwrites, hgrown⟩ := exists_growFlowPair hpair hvalue hfront
      (placed ++ ⟨.flowMappingEnd, brace⟩ :: rest) anchors handles
    obtain ⟨pairs, hpairs, hothers⟩ := ih hothers hlater
    refine ⟨pair :: pairs, .cons hwrites hpairs, ?_⟩
    have hkey := first?_of_pairTokens hfront (placed ++ ⟨.flowMappingEnd, brace⟩ :: rest) anchors
      handles
    have hskip : growFlowPairs (fuel + 2) false
        ⟨⟨.flowEntry, comma⟩ :: (front ++ placed) ++ ⟨.flowMappingEnd, brace⟩ :: rest, anchors,
          handles⟩ =
        growFlowPair (fuel + 1)
          ⟨front ++ (placed ++ ⟨.flowMappingEnd, brace⟩ :: rest), anchors, handles⟩ := by
      rw [growFlowPairs, if_neg (by simp [Supply.atOneOf, Supply.first?]), if_neg (by simp),
        if_pos (by simp [Supply.atOneOf, Supply.first?]), List.cons_append, List.append_assoc,
        Supply.skip, List.tail_cons, if_neg (by simp [Supply.atOneOf, hkey])]
    rw [hskip, hgrown, hothers]
    rfl

/-- The pairs of a mapping are grown from its start up to the closing brace. -/
theorem exists_growFlowPairs_first (h : List.Forall₂ GrowsPair parts fields) {fuel : Nat}
    (hfuel : 8 * (membersTokens parts).length + 2 ≤ fuel) {placed : List Placed}
    (hplaced : placed.map Placed.token = membersTokens parts) (brace : Position)
    (rest : List Placed) (anchors : NameMap Nat) (handles : Handles) :
    ∃ pairs, List.Forall₂ Writes pairs fields ∧
      growFlowPairs fuel true ⟨placed ++ ⟨.flowMappingEnd, brace⟩ :: rest, anchors, handles⟩ =
        some (pairs, ⟨rest, anchors, handles⟩) := by
  obtain ⟨fuel, rfl⟩ : ∃ k, fuel = k + 2 := ⟨fuel - 2, by omega⟩
  cases h with
  | nil =>
    obtain rfl := List.map_eq_nil_iff.1 hplaced
    exact ⟨[], .nil, rfl⟩
  | @cons part field parts fields hpair hrest =>
    have hlength : (membersTokens (part :: parts)).length =
        part.2.length + 3 + (furtherTokens parts).length := by
      simp only [membersTokens, List.length_append, List.length_cons, pairTokens]
    rw [hlength] at hfuel
    obtain ⟨front, placed, rfl, hfront, hlater⟩ := List.map_eq_append_iff.1 hplaced
    have hvalue : 8 * part.2.length + 3 ≤ fuel := by omega
    have hothers : 8 * (furtherTokens parts).length + 1 ≤ fuel := by omega
    obtain ⟨pair, hwrites, hgrown⟩ := exists_growFlowPair hpair hvalue hfront
      (placed ++ ⟨.flowMappingEnd, brace⟩ :: rest) anchors handles
    obtain ⟨pairs, hpairs, hothers⟩ := exists_growFlowPairs hrest hothers hlater brace rest anchors
      handles
    refine ⟨pair :: pairs, .cons hwrites hpairs, ?_⟩
    have hkey := first?_of_pairTokens hfront (placed ++ ⟨.flowMappingEnd, brace⟩ :: rest) anchors
      handles
    rw [List.append_assoc, growFlowPairs, if_neg (by simp [Supply.atOneOf, hkey]), if_pos rfl,
      hgrown, hothers]
    rfl

/-- The tokens of a mapping in braces grow to the mapping of its pairs. -/
theorem exists_growNode_object (h : List.Forall₂ GrowsPair parts fields) {fuel : Nat}
    (hfuel : 8 * (objectTokens parts).length ≤ fuel) (inBlock underKey : Bool)
    {placed : List Placed} (hplaced : placed.map Placed.token = objectTokens parts)
    (rest : List Placed) (anchors : NameMap Nat) (handles : Handles) :
    ∃ position pairs, List.Forall₂ Writes pairs fields ∧
      growNode fuel inBlock underKey ⟨placed ++ rest, anchors, handles⟩ =
        some (.mapping ⟨position, none, none⟩ pairs, ⟨rest, anchors, handles⟩) := by
  have hlength : (objectTokens parts).length = (membersTokens parts).length + 2 := by
    simp [objectTokens]
  obtain ⟨fuel, rfl⟩ : ∃ k, fuel = k + 2 := ⟨fuel - 2, by omega⟩
  obtain ⟨position, _, rfl, hmembers⟩ := exists_placed_eq_cons hplaced
  obtain ⟨members, closing, rfl, hinside, hclosing⟩ := List.map_eq_append_iff.1 hmembers
  obtain ⟨brace, _, rfl, hnil⟩ := exists_placed_eq_cons hclosing
  obtain rfl := List.map_eq_nil_iff.1 hnil
  have hpairs : 8 * (membersTokens parts).length + 2 ≤ fuel := by omega
  obtain ⟨pairs, hwrites, hgrown⟩ :=
    exists_growFlowPairs_first h hpairs hinside brace rest anchors handles
  have htokens : ⟨.flowMappingStart, position⟩ :: (members ++ [⟨.flowMappingEnd, brace⟩]) ++ rest =
      ⟨.flowMappingStart, position⟩ :: (members ++ ⟨.flowMappingEnd, brace⟩ :: rest) := by
    simp
  refine ⟨position, pairs, hwrites, ?_⟩
  rw [htokens]
  show asPart (growFlowPairs fuel true ⟨members ++ ⟨.flowMappingEnd, brace⟩ :: rest, anchors,
    handles⟩) (Node.mapping _) = _
  rw [hgrown]
  rfl

/-- Pairs that write fields stand for them, as a whole without any alias. -/
theorem counted_of_writes {pairs : List (Node × Node)} (h : List.Forall₂ Writes pairs fields)
    (nodes : List (Nat × Node)) :
    Counted (Paired (Stands nodes) (Stands nodes)) pairs
      (fields.map fun field => (.string field.1, field.2)) 0 := by
  induction h with
  | nil => exact .nil
  | @cons pair field _ _ hwrites _ ih =>
    obtain ⟨key, value⟩ := pair
    obtain ⟨⟨position, rfl⟩, hvalue⟩ := hwrites
    exact .pair (Stands.ofScalar rfl rfl) (hvalue nodes) ih

/-- Pairs that write entries describe them, without any alias. -/
theorem Node.describes_of_writes {position : Position} {pairs : List (Node × Node)}
    (h : List.Forall₂ Writes pairs fields) :
    (Node.mapping ⟨position, none, none⟩ pairs).Describes fields 0 := by
  have hcounted (nodes : List (Nat × Node)) :
      Counted (Paired (Names nodes) (Stands nodes)) pairs fields 0 := by
    induction h with
    | nil => exact .nil
    | @cons pair entry _ _ hwrites _ ih =>
      obtain ⟨key, value⟩ := pair
      obtain ⟨⟨place, rfl⟩, hvalue⟩ := hwrites
      exact .pair (Names.ofScalar ..) (hvalue nodes) ih
  exact ⟨_, pairs, rfl, hcounted _⟩

/-- A mapping in braces grows to what stands for the mapping of its fields. -/
theorem grows_object (h : List.Forall₂ GrowsPair parts fields) :
    Grows (objectTokens parts) (.mapping (fields.map fun field => (.string field.1, field.2))) := by
  refine ⟨⟨_, _, rfl, by simp, by simp⟩, ?_⟩
  intro fuel hfuel inBlock underKey placed rest anchors handles hplaced
  obtain ⟨position, pairs, hwrites, hgrown⟩ :=
    exists_growNode_object h hfuel inBlock underKey hplaced rest anchors handles
  exact ⟨_, hgrown, fun nodes => Stands.ofMapping rfl (counted_of_writes hwrites nodes)⟩

/-- A text with the tokens of a mapping in braces has a mapping that writes its fields as its
root. -/
theorem Node.exists_ofText?_of_object {text : Text} {placed : List Placed}
    (htext : Token.ofText? text = some placed)
    (hplaced : placed.map Placed.token = objectTokens parts ++ [.streamEnd])
    (h : List.Forall₂ GrowsPair parts fields) :
    ∃ position pairs, Node.ofText? text = some (.mapping ⟨position, none, none⟩ pairs) ∧
      List.Forall₂ Writes pairs fields := by
  obtain ⟨object, ending, rfl, hobject, hending⟩ := List.map_eq_append_iff.1 hplaced
  obtain ⟨stop, _, rfl, hnil⟩ := exists_placed_eq_cons hending
  obtain rfl := List.map_eq_nil_iff.1 hnil
  let last : Placed := ⟨.streamEnd, stop⟩
  let fuel := 8 * (object ++ [last]).length + 8
  have hlength : object.length = (objectTokens parts).length := by rw [← hobject, List.length_map]
  have hfuel : 8 * (objectTokens parts).length ≤ fuel := by
    simp only [fuel, List.length_append, hlength]
    omega
  obtain ⟨position, pairs, hwrites, hgrown⟩ :=
    exists_growNode_object h hfuel true false hobject [last] NameMap.empty Handles.standard
  refine ⟨position, pairs, ?_, hwrites⟩
  have hroot : growRoot fuel (object ++ [last]) =
      some (.mapping ⟨position, none, none⟩ pairs, ⟨[last], NameMap.empty, Handles.standard⟩) := by
    rw [← hgrown]
    obtain ⟨opening, others, rfl, -⟩ := exists_placed_eq_cons hobject
    show ite (_ = _) _ _ = _
    exact if_pos rfl
  have hne : (object ++ [last]).map Placed.token ≠ [.streamEnd] := by
    rw [hplaced]
    simp [objectTokens]
  rw [Node.ofText?, htext]
  refine (if_neg hne).trans ?_
  show (growRoot fuel (object ++ [last]) >>= _) = _
  rw [hroot]
  rfl

end

end TypedVars.Yaml
