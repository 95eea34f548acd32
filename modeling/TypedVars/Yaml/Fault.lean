import TypedVars.Yaml.Node
import TypedVars.Yaml.Value

/-!
# Faults of documents

A document that is well formed can still be impossible to read. The fault then names the node where
the reading stopped, by the path to it from the root and by its position.
-/

set_option autoImplicit false

namespace TypedVars.Yaml

/-! ## Paths -/

/-- A step from a collection to one of its parts. -/
inductive Step where
  /-- To an item of a sequence. -/
  | item (index : Nat)
  /-- To the value of a key that is a scalar. -/
  | key (text : Text)
  /-- To the value of another key. -/
  | unknown
deriving DecidableEq, Repr

/-- The step to the value of a key. -/
def Node.step : Node → Step
  | .scalar _ text _ => .key text
  | _ => .unknown

/-- The steps to a node, the last one first. An alias is no step of its own. -/
abbrev Path := List Step

mutual

/-- A path in messages; that to the root is a point. -/
def Path.text : Path → Text
  | [] => ['.']
  | .item index :: outer => Path.text outer ++ ['['] ++ Digits.ofNat index ++ [']']
  | .key name :: outer => Path.leading outer ++ name
  | .unknown :: outer => Path.leading outer ++ ['?']

/-- A path in front of a name; that to the root is left out. -/
def Path.leading : Path → Text
  | [] => []
  | step :: outer => Path.text (step :: outer) ++ ['.']

end

/-- A position at the end of a message, counted from one. The start of a text is left out. -/
def Position.text (position : Position) : Text :=
  if position = .start then []
  else " at line ".toList ++ Digits.ofNat (position.line + 1) ++ " column ".toList ++
    Digits.ofNat (position.column + 1)

/-- A message about the node at a path and a position. A path that is written like that to the root
is left out. -/
def located (path : Path) (position : Position) (message : Text) : Text :=
  (if path.text = ['.'] then [] else path.text ++ [':', ' ']) ++ message ++ position.text

/-! ## Faults -/

/-- The wording for a value of the wrong type. -/
def wrongTypeText (found expected : Text) : Text :=
  "invalid type: ".toList ++ found ++ ", expected ".toList ++ expected

/-- What is wrong with a node. -/
inductive Problem where
  /-- A whole number is too wide for sixty-four bits; `description` names it. -/
  | tooWide (description : Text)
  /-- The spelling of a scalar does not suit its core tag. -/
  | misspelt (text : Text) (core : CoreTag)
  /-- The tag of a value names a variant of an enumeration. -/
  | variant
  /-- A collection stands where a name is needed; `description` names it. -/
  | noName (description : Text)
  /-- The document is no mapping; `description` names what it is. -/
  | noMapping (description : Text)
deriving DecidableEq, Repr

/-- The wording of a problem. -/
def Problem.text : Problem → Text
  | .tooWide found => wrongTypeText found "any value".toList
  | .misspelt text core =>
    "invalid value: string ".toList ++ Text.quoted text ++ ", expected ".toList ++ core.expected
  | .variant => "untagged and internally tagged enums do not support enum input".toList
  | .noName found => wrongTypeText found "field identifier".toList
  | .noMapping found => wrongTypeText found "struct VariableSchema".toList

/-- Why a document cannot be read. -/
inductive ReadFault where
  /-- The text is not well formed, has more than one document, or an alias refers to nothing. -/
  | notWellFormed
  /-- Something is wrong with the node at a path and a position. -/
  | node (path : Path) (position : Position) (problem : Problem)
  /-- Collections are nested too deep from a position on. -/
  | tooDeep (position : Position)
  /-- Too many aliases are followed. -/
  | tooManyAliases
deriving DecidableEq, Repr

/-- The wording of a fault; there is none for text that is not well formed. -/
def ReadFault.message? : ReadFault → Option Text
  | .notWellFormed => none
  | .node path position problem => some (located path position problem.text)
  | .tooDeep position => some ("recursion limit exceeded".toList ++ position.text)
  | .tooManyAliases => some "repetition limit exceeded".toList

end TypedVars.Yaml
