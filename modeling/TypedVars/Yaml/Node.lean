import TypedVars.NameMap
import TypedVars.Yaml.TokenReader

/-!
# Nodes of a document

A document is a tree of scalars, aliases, sequences and mappings. A node may have a tag, and an
anchor, to which later aliases refer by number. A text has at most one document, and only text that
is well formed to its end has a tree.
-/

set_option autoImplicit false

namespace TypedVars.Yaml

/-- What stands in front of the content of a node. -/
structure Front where
  /-- Where the node starts. -/
  position : Position
  /-- The number of its anchor. -/
  anchor : Option Nat
  /-- Its tag. -/
  tag : Option Tag
deriving DecidableEq, Repr

namespace Front

/-- The front of a place where nothing is written. No message names such a place, so the position
does not matter. -/
def absent : Front := ⟨.start, none, none⟩

/-- The front of a scalar: a lone exclamation mark is no tag of one. -/
def ofScalar (front : Front) : Front :=
  if front.tag = some .nonSpecific then { front with tag := none } else front

/-- A tag names a variant of an enumeration. -/
def namesVariant (front : Front) : Bool := front.tag.any Tag.namesVariant

end Front

/-- A node of a document. -/
inductive Node where
  /-- A scalar, plain or of another style. -/
  | scalar (front : Front) (text : Text) (plain : Bool)
  /-- A reference to an anchored node. -/
  | alias (target : Nat)
  /-- A sequence. -/
  | sequence (front : Front) (items : List Node)
  /-- A mapping, by its pairs of key and value. -/
  | mapping (front : Front) (pairs : List (Node × Node))
deriving Repr

namespace Node

/-- The node of a place where nothing is written. -/
def empty : Node := .scalar .absent [] true

/-- The front of a node. An alias is followed before its front matters. -/
def front : Node → Front
  | .scalar front .. => front
  | .sequence front _ => front
  | .mapping front _ => front
  | .alias _ => .absent

mutual

/-- The anchored nodes of a tree by the numbers of their anchors, in the order of the text. -/
def anchored : Node → List (Nat × Node)
  | .scalar front text plain =>
    (front.anchor.map fun id => (id, .scalar front text plain)).toList
  | .sequence front items =>
    (front.anchor.map fun id => (id, .sequence front items)).toList ++ anchoredItems items
  | .mapping front pairs =>
    (front.anchor.map fun id => (id, .mapping front pairs)).toList ++ anchoredPairs pairs
  | _ => []

/-- The anchored nodes of the items of a sequence. -/
def anchoredItems : List Node → List (Nat × Node)
  | [] => []
  | item :: rest => anchored item ++ anchoredItems rest

/-- The anchored nodes of the pairs of a mapping. -/
def anchoredPairs : List (Node × Node) → List (Nat × Node)
  | [] => []
  | (key, value) :: rest => anchored key ++ anchored value ++ anchoredPairs rest

end

mutual

/-- The number of marks in a tree: one for a scalar or alias, two for a collection. -/
def size : Node → Nat
  | .scalar .. => 1
  | .alias _ => 1
  | .sequence _ items => 2 + sizeItems items
  | .mapping _ pairs => 2 + sizePairs pairs

/-- The number of marks in the items of a sequence. -/
def sizeItems : List Node → Nat
  | [] => 0
  | item :: rest => size item + sizeItems rest

/-- The number of marks in the pairs of a mapping. -/
def sizePairs : List (Node × Node) → Nat
  | [] => 0
  | (key, value) :: rest => size key + size value + sizePairs rest

end

mutual

/-- Nodes are compared part by part. -/
def decEq : (left right : Node) → Decidable (left = right)
  | .scalar front text plain, .scalar front' text' plain' =>
    decidable_of_iff (front = front' ∧ text = text' ∧ plain = plain') (by simp)
  | .alias target, .alias target' => decidable_of_iff (target = target') (by simp)
  | .sequence front items, .sequence front' items' =>
    match decEqItems items items' with
    | .isTrue h => decidable_of_iff (front = front') (by simp [h])
    | .isFalse h => .isFalse (by simp [h])
  | .mapping front pairs, .mapping front' pairs' =>
    match decEqPairs pairs pairs' with
    | .isTrue h => decidable_of_iff (front = front') (by simp [h])
    | .isFalse h => .isFalse (by simp [h])
  | .scalar .., .alias _ | .scalar .., .sequence .. | .scalar .., .mapping .. => .isFalse (by simp)
  | .alias _, .scalar .. | .alias _, .sequence .. | .alias _, .mapping .. => .isFalse (by simp)
  | .sequence .., .scalar .. | .sequence .., .alias _ | .sequence .., .mapping .. =>
    .isFalse (by simp)
  | .mapping .., .scalar .. | .mapping .., .alias _ | .mapping .., .sequence .. =>
    .isFalse (by simp)

/-- The items of sequences are compared in order. -/
def decEqItems : (left right : List Node) → Decidable (left = right)
  | [], [] => .isTrue rfl
  | [], _ :: _ | _ :: _, [] => .isFalse (by simp)
  | item :: items, item' :: items' =>
    match decEq item item', decEqItems items items' with
    | .isTrue h, .isTrue h' => .isTrue (by rw [h, h'])
    | .isFalse h, _ => .isFalse (by simp [h])
    | _, .isFalse h => .isFalse (by simp [h])

/-- The pairs of mappings are compared in order. -/
def decEqPairs : (left right : List (Node × Node)) → Decidable (left = right)
  | [], [] => .isTrue rfl
  | [], _ :: _ | _ :: _, [] => .isFalse (by simp)
  | (key, value) :: pairs, (key', value') :: pairs' =>
    match decEq key key', decEq value value', decEqPairs pairs pairs' with
    | .isTrue h, .isTrue h', .isTrue h'' => .isTrue (by rw [h, h', h''])
    | .isFalse h, _, _ => .isFalse (by simp [h])
    | _, .isFalse h, _ => .isFalse (by simp [h])
    | _, _, .isFalse h => .isFalse (by simp [h])

end

instance : DecidableEq Node := decEq

end Node

/-- The handles of tags with the addresses that they stand for. -/
abbrev Handles := List (Text × List UInt8)

/-- The handles that need no directive: a single exclamation mark for local tags, and a double one
for those of the format itself. -/
def Handles.standard : Handles := [(['!'], Tag.nonSpecific.bytes), (['!', '!'], coreAddress)]

/-- The tokens that a document still has, and what its text has declared so far. -/
structure Supply where
  /-- The tokens from here on. -/
  tokens : List Placed
  /-- The numbers of the anchors, by their names. -/
  anchors : NameMap Nat
  /-- The declared handles of tags. -/
  handles : Handles

namespace Supply

/-- The supply behind the first token. -/
def skip (supply : Supply) : Supply := { supply with tokens := supply.tokens.tail }

/-- The first token. -/
def first? (supply : Supply) : Option Token := supply.tokens.head?.map Placed.token

/-- Where the first token starts. -/
def position (supply : Supply) : Position := supply.tokens.head?.elim .start Placed.position

/-- The first token is one of a list. -/
def atOneOf (supply : Supply) (tokens : List Token) : Bool := supply.first?.any tokens.contains

/-- Numbers a new anchor by the number of distinct names before it. -/
def declare (supply : Supply) (name : Text) : Nat × Supply :=
  let id := supply.anchors.size
  (id, { supply with anchors := supply.anchors.insert name id })

/-- The tag that an address stands for behind a handle, which has to be declared. A verbatim tag has
no handle. -/
def tag? (supply : Supply) (handle : Text) (address : List UInt8) : Option Tag :=
  if handle = [] then some ⟨address⟩
  else (supply.handles.lookup handle).map fun start => ⟨start ++ address⟩

end Supply

/-- The properties in front of a node. -/
structure Properties where
  /-- The name of its anchor. -/
  anchor : Option Text
  /-- The handle and the address of its tag. -/
  tag : Option (Text × List UInt8)

/-- Takes the properties off a supply: at most one anchor and one tag, in either order. -/
def Properties.take (supply : Supply) : Properties × Supply :=
  match supply.first?, supply.skip.first? with
  | some (.anchor name), some (.tag handle address) =>
    (⟨some name, some (handle, address)⟩, supply.skip.skip)
  | some (.tag handle address), some (.anchor name) =>
    (⟨some name, some (handle, address)⟩, supply.skip.skip)
  | some (.anchor name), _ => (⟨some name, none⟩, supply.skip)
  | some (.tag handle address), _ => (⟨none, some (handle, address)⟩, supply.skip)
  | _, _ => (⟨none, none⟩, supply)

/-- Takes the front of a node off a supply, with a new number for its anchor. There is none when the
handle of its tag is not declared. -/
def Front.take? (supply : Supply) : Option (Front × Supply) := do
  let (properties, content) := Properties.take supply
  let tag ←
    match properties.tag with
    | some (handle, address) => (content.tag? handle address).map some
    | none => some none
  match properties.anchor with
  | some name =>
    let (id, declared) := content.declare name
    return (⟨supply.position, some id, tag⟩, declared)
  | none => return (⟨supply.position, none, tag⟩, content)

/-- Makes something of a part of a tree that has been grown, and keeps the supply behind it. -/
def asPart {α β : Type} (grown : Option (α × Supply)) (make : α → β) : Option (β × Supply) :=
  grown.map fun (part, behind) => (make part, behind)

mutual

/-- Grows a node. Block collections stand in block context only; a sequence without indentation of
its own stands under a key only. Properties without content belong to an empty scalar. -/
def growNode : Nat → Bool → Bool → Supply → Option (Node × Supply)
  | 0, _, _, _ => none
  | fuel + 1, inBlock, underKey, supply =>
    match supply.first? with
    | some (.alias name) => (supply.anchors.get? name).map fun id => (.alias id, supply.skip)
    | _ => do
      let (front, content) ← Front.take? supply
      growContent fuel inBlock underKey front content

/-- Grows the content of a node behind its front. -/
def growContent : Nat → Bool → Bool → Front → Supply → Option (Node × Supply)
  | 0, _, _, _, _ => none
  | fuel + 1, inBlock, underKey, front, supply =>
    match supply.first? with
    | some (.scalar text plain) => some (.scalar front.ofScalar text plain, supply.skip)
    | some .blockEntry =>
      if underKey then asPart (growPlainEntries fuel supply) (.sequence front)
      else growBare front supply
    | some .flowSequenceStart => asPart (growFlowItems fuel true supply.skip) (.sequence front)
    | some .flowMappingStart => asPart (growFlowPairs fuel true supply.skip) (.mapping front)
    | some .blockSequenceStart =>
      if inBlock then asPart (growBlockEntries fuel supply.skip) (.sequence front)
      else growBare front supply
    | some .blockMappingStart =>
      if inBlock then asPart (growBlockPairs fuel supply.skip) (.mapping front)
      else growBare front supply
    | _ => growBare front supply

/-- Grows a node without content, which has to have properties. -/
def growBare (front : Front) (supply : Supply) : Option (Node × Supply) :=
  if front.anchor.isNone && front.tag.isNone then none else some (.scalar front [] true, supply)

/-- Grows a node, or an empty one in front of one of some tokens. -/
def growOptional : Nat → Bool → Bool → List Token → Supply → Option (Node × Supply)
  | 0, _, _, _, _ => none
  | fuel + 1, inBlock, underKey, absent, supply =>
    if supply.atOneOf absent then some (.empty, supply)
    else growNode fuel inBlock underKey supply

/-- Grows the value of a pair: behind a colon a node or an empty one, and without a colon an empty
one. -/
def growValue : Nat → Bool → List Token → Supply → Option (Node × Supply)
  | 0, _, _, _ => none
  | fuel + 1, inBlock, absent, supply =>
    if supply.atOneOf [.value] then growOptional fuel inBlock inBlock absent supply.skip
    else some (.empty, supply)

/-- Grows the entries of an indented sequence. -/
def growBlockEntries : Nat → Supply → Option (List Node × Supply)
  | 0, _ => none
  | fuel + 1, supply =>
    match supply.first? with
    | some .blockEntry => do
      let (entry, behind) ← growOptional fuel true false [.blockEntry, .blockEnd] supply.skip
      asPart (growBlockEntries fuel behind) (entry :: ·)
    | some .blockEnd => some ([], supply.skip)
    | _ => none

/-- Grows the entries of a sequence without indentation of its own. -/
def growPlainEntries : Nat → Supply → Option (List Node × Supply)
  | 0, _ => none
  | fuel + 1, supply =>
    match supply.first? with
    | some .blockEntry => do
      let (entry, behind) ←
        growOptional fuel true false [.blockEntry, .key, .value, .blockEnd] supply.skip
      asPart (growPlainEntries fuel behind) (entry :: ·)
    | _ => some ([], supply)

/-- Grows the pairs of an indented mapping. -/
def growBlockPairs : Nat → Supply → Option (List (Node × Node) × Supply)
  | 0, _ => none
  | fuel + 1, supply =>
    match supply.first? with
    | some .key => do
      let (key, behind) ← growOptional fuel true true [.key, .value, .blockEnd] supply.skip
      let (value, behind) ← growValue fuel true [.key, .value, .blockEnd] behind
      asPart (growBlockPairs fuel behind) ((key, value) :: ·)
    | some .blockEnd => some ([], supply.skip)
    | _ => none

/-- Grows the items of a sequence in brackets, from its start or behind an item. -/
def growFlowItems : Nat → Bool → Supply → Option (List Node × Supply)
  | 0, _, _ => none
  | fuel + 1, first, supply =>
    if supply.atOneOf [.flowSequenceEnd] then some ([], supply.skip)
    else if first then growFlowItem fuel supply
    else if supply.atOneOf [.flowEntry] then
      if supply.skip.atOneOf [.flowSequenceEnd] then some ([], supply.skip.skip)
      else growFlowItem fuel supply.skip
    else none

/-- Grows an item of a sequence in brackets and the items behind it. An item may be a pair, which is
a mapping of its own. -/
def growFlowItem : Nat → Supply → Option (List Node × Supply)
  | 0, _ => none
  | fuel + 1, supply =>
    if supply.atOneOf [.key] then do
      let front := { Front.absent with position := supply.position }
      let (key, behind) ←
        -- in place of a missing key the token behind the mark is dropped
        if supply.skip.atOneOf [.value, .flowEntry, .flowSequenceEnd] then
          some (.empty, supply.skip.skip)
        else growNode fuel false false supply.skip
      let (value, behind) ← growValue fuel false [.flowEntry, .flowSequenceEnd] behind
      asPart (growFlowItems fuel false behind) (.mapping front [(key, value)] :: ·)
    else do
      let (item, behind) ← growNode fuel false false supply
      asPart (growFlowItems fuel false behind) (item :: ·)

/-- Grows the pairs of a mapping in braces, from its start or behind a pair. -/
def growFlowPairs : Nat → Bool → Supply → Option (List (Node × Node) × Supply)
  | 0, _, _ => none
  | fuel + 1, first, supply =>
    if supply.atOneOf [.flowMappingEnd] then some ([], supply.skip)
    else if first then growFlowPair fuel supply
    else if supply.atOneOf [.flowEntry] then
      if supply.skip.atOneOf [.flowMappingEnd] then some ([], supply.skip.skip)
      else growFlowPair fuel supply.skip
    else none

/-- Grows a pair of a mapping in braces and the pairs behind it. A node without the mark of a key
has an empty value. -/
def growFlowPair : Nat → Supply → Option (List (Node × Node) × Supply)
  | 0, _ => none
  | fuel + 1, supply =>
    if supply.atOneOf [.key] then do
      let (key, behind) ←
        growOptional fuel false false [.value, .flowEntry, .flowMappingEnd] supply.skip
      let (value, behind) ← growValue fuel false [.flowEntry, .flowMappingEnd] behind
      asPart (growFlowPairs fuel false behind) ((key, value) :: ·)
    else do
      let (key, behind) ← growNode fuel false false supply
      asPart (growFlowPairs fuel false behind) ((key, .empty) :: ·)

end

/-- The directives in front of a document: at most one version, which must be known, and every
handle at most once. -/
def takeDirectives (versioned : Bool) (handles : Handles) :
    List Placed → Option (Handles × List Placed)
  | ⟨.versionDirective major minor, _⟩ :: rest =>
    if versioned || major != 1 || (minor != 1 && minor != 2) then none
    else takeDirectives true handles rest
  | ⟨.tagDirective handle address, _⟩ :: rest =>
    if (handles.lookup handle).isSome then none
    else takeDirectives versioned ((handle, address) :: handles) rest
  | rest => some (handles, rest)

/-- Grows the root behind the mark of the document's start, where it may be missing. -/
def growMarked (fuel : Nat) (supply : Supply) : Option (Node × Supply) :=
  match supply.first? with
  | some (.versionDirective ..) => some (.empty, supply)
  | some (.tagDirective ..) => some (.empty, supply)
  | some .documentStart => some (.empty, supply)
  | some .documentEnd => some (.empty, supply)
  | some .streamEnd => some (.empty, supply)
  | _ => growNode fuel true false supply

/-- Grows the root of the first document. Directives need the mark of its start behind them. -/
def growRoot (fuel : Nat) (tokens : List Placed) : Option (Node × Supply) := do
  let (handles, rest) ← takeDirectives false [] tokens
  let supply : Supply := ⟨rest, NameMap.empty, handles ++ Handles.standard⟩
  if supply.atOneOf [.documentStart] then growMarked fuel supply.skip
  else if rest.length = tokens.length then growNode fuel true false supply
  else none

/-- Nothing but ends of documents follows up to the end of the text. -/
def endsText (tokens : List Token) : Bool :=
  match tokens.dropWhile (· == .documentEnd) with
  | .streamEnd :: _ => true
  | _ => false

/-- The root of the only document of a text, if the text is well formed. A text without any node has
an empty one. -/
def Node.ofText? (text : Text) : Option Node := do
  let tokens ← Token.ofText? text
  if tokens.map Placed.token = [.streamEnd] then return .empty
  let (root, left) ← growRoot (8 * tokens.length + 8) tokens
  if endsText (left.tokens.map Placed.token) then return root else none

end TypedVars.Yaml
