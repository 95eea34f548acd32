import TypedVars.Json
import TypedVars.NameMap
import TypedVars.TargetType

/-!
# Schemas

A schema declares variables: names with a type and an initial value. It is written as a JSON object
of definitions in the order of the names.
-/

set_option autoImplicit false

namespace TypedVars

/-- A variable: its declared type and its value. -/
structure Variable where
  /-- The declared type. -/
  type : TargetType
  /-- The value, which is text whatever the type. -/
  value : Text
deriving DecidableEq, Repr

/-- The declared variables of a store, by name. -/
abbrev Schema := NameMap Variable

/-- The definition of a variable as JSON. -/
def Variable.json (declared : Variable) : Text :=
  Json.compactObject
    [(['t', 'y', 'p', 'e'], Json.string declared.type.tag),
      (['v', 'a', 'l', 'u', 'e'], Json.string declared.value)]

/-- A schema as JSON on one line. -/
def Schema.json (schema : Schema) : Text :=
  Json.compactObject (schema.entries.map fun entry => (entry.1, entry.2.json))

end TypedVars
