import TypedVars.Resolution
import TypedVars.Schema
import TypedVars.Substitution

/-!
# Stores

A store holds the current variables. A change of a variable fills the placeholders of the new text
from the current values of all variables, in the order of their names, and then resolves it for the
type of the variable. Changing or setting a variable that is not declared fails and alters nothing.
-/

set_option autoImplicit false

namespace TypedVars

/-- The current variables. -/
structure Store where
  /-- The variables by name. -/
  slots : NameMap Variable

/-- A name that no declaration covers. -/
structure UnknownVariable where
  /-- The name. -/
  name : Text
deriving DecidableEq, Repr

/-- The wording for a name that is not declared. -/
def UnknownVariable.message (unknown : UnknownVariable) : Text :=
  "Variable '".toList ++ unknown.name ++ "' not found".toList

/-- The wording where it has to be told what it is a fault of. -/
def UnknownVariable.report (unknown : UnknownVariable) : Text :=
  "Variable error: ".toList ++ unknown.message

namespace Store

/-- The store without variables. -/
def empty : Store := ⟨NameMap.empty⟩

/-- The store of the variables that a schema declares, with their initial values. -/
def ofSchema (schema : Schema) : Store := ⟨schema⟩

/-- The variable of a name. -/
def find? (store : Store) (name : Text) : Option Variable := store.slots.get? name

/-- The value of a variable. -/
def get? (store : Store) (name : Text) : Option Text := (store.find? name).map Variable.value

/-- The declared type of a variable. -/
def type? (store : Store) (name : Text) : Option TargetType := (store.find? name).map Variable.type

/-- The number of variables. -/
def size (store : Store) : Nat := store.slots.size

/-- There are no variables. -/
def isEmpty (store : Store) : Bool := store.slots.entries.isEmpty

/-- Declares a variable, over any earlier declaration of the name. -/
def declare (store : Store) (name : Text) (type : TargetType) (value : Text) : Store :=
  ⟨store.slots.insert name ⟨type, value⟩⟩

/-- Stores a value as it is. -/
def set (store : Store) (name value : Text) : Except UnknownVariable Store :=
  match store.find? name with
  | some found => .ok ⟨store.slots.insert name ⟨found.type, value⟩⟩
  | none => .error ⟨name⟩

/-- The names with their current values, in the order of the names. -/
def bindings (store : Store) : List (Text × Text) :=
  store.slots.entries.map fun entry => (entry.1, entry.2.value)

/-- Gives a variable a new raw value. The answer is the new store with the value that it now
holds. -/
def change (store : Store) (name raw : Text) : Except UnknownVariable (Store × Text) := do
  match store.type? name with
  | none => .error ⟨name⟩
  | some type =>
    let resolved := type.resolve (substituteAll raw store.bindings)
    let changed ← store.set name resolved
    return (changed, resolved)

/-- The store as a JSON object of names and values, one a line. -/
def json (store : Store) : Text :=
  Json.indentedObject (store.bindings.map fun binding => (binding.1, Json.string binding.2))

end Store

end TypedVars
