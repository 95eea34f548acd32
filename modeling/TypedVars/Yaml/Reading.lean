import TypedVars.Yaml.Fault

/-!
# Reading a document

The nodes of a document are read as values in the order of the text, and an alias is read as the
node it refers to. Reading stops at a whole number that is too wide, at a tag that names a variant
or does not suit its scalar, at collections nested too deep, and after too many aliases.
-/

set_option autoImplicit false

namespace TypedVars.Yaml

/-- The nodes that aliases refer to, and how many aliases may be followed. -/
structure Anchors where
  /-- The anchored nodes by number, the last one first. -/
  nodes : List (Nat × Node)
  /-- The greatest number of aliases that are followed. -/
  limit : Nat
deriving Repr

/-- The anchors of a document. A hundred aliases may be followed for each mark. -/
def Anchors.ofRoot (root : Node) : Anchors := ⟨root.anchored.reverse, 100 * root.size⟩

/-- A reading counts the aliases followed so far. -/
abbrev Reading := StateT Nat (Except ReadFault)

/-- The node that a node stands for: itself, or the one an alias refers to. -/
def follow (anchors : Anchors) : Node → Reading Node
  | .alias target => do
    let followed ← get
    if anchors.limit ≤ followed then throw .tooManyAliases
    set (followed + 1)
    match anchors.nodes.lookup target with
    | some node => return node
    | none => throw .notWellFormed
  | node => return node

/-- The value of a scalar, of which the spelling has to suit the tag and which must not be too
wide. -/
def scalarValue (tag : Option Tag) (text : Text) (plain : Bool) : Except Problem Value :=
  match Value.ofScalar tag text plain with
  | .error core => .error (.misspelt text core)
  | .ok value =>
    match value.wideDescription? with
    | some description => .error (.tooWide description)
    | none => .ok value

/-- Reads a scalar as a value. -/
def readScalar (path : Path) (front : Front) (text : Text) (plain : Bool) : Reading Value :=
  match scalarValue front.tag text plain with
  | .ok value => return value
  | .error problem => throw (.node path front.position problem)

/-- The node that is read as a value in the place of a node. No value is a variant of an
enumeration. -/
def followValue (anchors : Anchors) (path : Path) (node : Node) : Reading Node := do
  let found ← follow anchors node
  if found.front.namesVariant then throw (.node path found.front.position .variant)
  else return found

/-- Reads a node as a value, with collections nested at most as deep as `depth`. The keys of a
mapping have the path of the mapping. -/
def readValue (anchors : Anchors) : Nat → Path → Node → Reading Value
  | 0, path, node => do
    match ← followValue anchors path node with
    | .scalar front text plain => readScalar path front text plain
    | .sequence front _ => throw (.tooDeep front.position)
    | .mapping front _ => throw (.tooDeep front.position)
    | .alias _ => throw .notWellFormed
  | depth + 1, path, node => do
    match ← followValue anchors path node with
    | .scalar front text plain => readScalar path front text plain
    | .sequence _ items =>
      return .sequence (← items.zipIdx.mapM fun item =>
        readValue anchors depth (.item item.2 :: path) item.1)
    | .mapping _ pairs =>
      return .mapping (← pairs.mapM fun pair => do
        let key ← readValue anchors depth path pair.1
        let value ← readValue anchors depth (pair.1.step :: path) pair.2
        return (key, value))
    | .alias _ => throw .notWellFormed

/-- Reads a node as a name: any scalar, by its text, whatever its tag. -/
def readName (anchors : Anchors) (node : Node) : Reading Text := do
  match ← follow anchors node with
  | .scalar _ text _ => return text
  | .sequence front _ => throw (.node [] front.position (.noName "sequence".toList))
  | .mapping front _ => throw (.node [] front.position (.noName "map".toList))
  | .alias _ => throw .notWellFormed

/-- The depth to which collections may be nested inside the root. -/
def depthLimit : Nat := 127

/-- Reads an entry of a document, a name and its value. -/
def readEntry (anchors : Anchors) (pair : Node × Node) : Reading (Text × Value) := do
  let name ← readName anchors pair.1
  let value ← readValue anchors depthLimit [pair.1.step] pair.2
  return (name, value)

/-- What is wrong with a root that is no mapping: a scalar is named by what it stands for. -/
def rootProblem (tag : Option Tag) (text : Text) (plain : Bool) : Problem :=
  match Value.ofScalar tag text plain with
  | .error core => .misspelt text core
  | .ok value => .noMapping (value.wideDescription?.getD value.described)

/-- Reads the entries of a document from its root, in order, names with values. The root has to be a
mapping; an empty root has no entries. -/
def Node.entries (root : Node) : Except ReadFault (List (Text × Value)) :=
  match root with
  | .scalar _ [] true => .ok []
  | .scalar front text plain =>
    .error (.node [] front.position (rootProblem front.tag text plain))
  | .sequence front _ => .error (.node [] front.position (.noMapping "sequence".toList))
  | .mapping _ pairs => (pairs.mapM (readEntry (Anchors.ofRoot root))).run' 0
  | .alias _ => .error .notWellFormed

end TypedVars.Yaml
