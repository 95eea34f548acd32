import TypedVars.Schema
import TypedVars.Yaml.Reading

/-!
# Schemas in YAML

A schema is loaded from a YAML document that maps names to definitions. A definition is a mapping
with a `type` and perhaps a `value`, or a sequence of the two. All definitions are read in the order
of the document, and the first fault is the answer; of definitions with the same name the last one
counts.
-/

set_option autoImplicit false

namespace TypedVars

/-- A part of a definition. -/
inductive Field where
  /-- The type of the variable. -/
  | type
  /-- The initial value. -/
  | value
deriving DecidableEq, Repr

/-- The name of a field. -/
def Field.name : Field → Text
  | .type => ['t', 'y', 'p', 'e']
  | .value => ['v', 'a', 'l', 'u', 'e']

/-- What is wrong with a definition. -/
inductive Variable.Fault where
  /-- A value has the wrong type; `found` names it, and `expected` what is needed. -/
  | wrongType (found expected : Text)
  /-- A definition has a field twice. -/
  | duplicate (field : Field)
  /-- A definition has no type. -/
  | missingType
  /-- A sequence is empty. -/
  | noElements
  /-- A sequence has more than two elements. -/
  | surplusElements (count : Nat)
  /-- A tag names no type. -/
  | unknownTag (tag : TargetType.UnknownTag)
deriving DecidableEq, Repr

/-- The wording of a fault. -/
def Variable.Fault.text : Variable.Fault → Text
  | .wrongType found expected => Yaml.wrongTypeText found expected
  | .duplicate field => "duplicate field \x60".toList ++ field.name ++ "\x60".toList
  | .missingType => "missing field \x60type\x60".toList
  | .noElements => "invalid length 0, expected struct VariableDef with 2 elements".toList
  | .surplusElements count =>
    "invalid length ".toList ++ Digits.ofNat count ++ ", expected 2 elements in sequence".toList
  | .unknownTag tag => tag.message

/-- Why a text is no schema. -/
inductive LoadFault where
  /-- The document cannot be read. -/
  | unreadable (fault : Yaml.ReadFault)
  /-- A definition is wrong. Definitions are read when the whole document has been, so the fault is
  that of the root and has its position. -/
  | definition (root : Yaml.Position) (fault : Variable.Fault)
deriving DecidableEq, Repr

/-- The wording of a fault; there is none for text that is not well formed. -/
def LoadFault.message? : LoadFault → Option Text
  | .unreadable fault => fault.message?
  | .definition root fault => some (Yaml.located [] root fault.text)

/-- The field that a key of a definition names; a key may name none. A field may be named by its
place as well. -/
def Field.ofKey : Yaml.Value → Except Variable.Fault (Option Field)
  | .string text =>
    .ok (if text = Field.name .type then some .type
      else if text = Field.name .value then some .value else none)
  | .natural place =>
    .ok (if place = 0 then some .type else if place = 1 then some .value else none)
  | other => .error (.wrongType other.described "field identifier".toList)

/-- The text that a value of a definition has to be. -/
def stringOf : Yaml.Value → Except Variable.Fault Text
  | .string text => .ok text
  | other => .error (.wrongType other.described "a string".toList)

/-- The type that a value of a definition names. -/
def typeOf (value : Yaml.Value) : Except Variable.Fault TargetType := do
  let tag ← stringOf value
  match TargetType.ofTag tag with
  | .ok type => return type
  | .error unknown => throw (.unknownTag unknown)

namespace Variable

/-- The fields of a definition met so far. -/
structure Fields where
  /-- The type. -/
  type : Option TargetType
  /-- The initial value. -/
  value : Option Text

/-- Adds a pair of a definition to the fields before it. -/
def Fields.add (fields : Fields) (pair : Yaml.Value × Yaml.Value) : Except Fault Fields := do
  match ← Field.ofKey pair.1 with
  | none => return fields
  | some .type =>
    if fields.type.isSome then throw (.duplicate .type)
    return { fields with type := some (← typeOf pair.2) }
  | some .value =>
    if fields.value.isSome then throw (.duplicate .value)
    return { fields with value := some (← stringOf pair.2) }

/-- The variable that a value defines. The initial value is empty unless it is given. -/
def ofValue : Yaml.Value → Except Fault Variable
  | .mapping pairs => do
    let fields ← pairs.foldlM Fields.add ⟨none, none⟩
    match fields.type with
    | some type => return ⟨type, fields.value.getD []⟩
    | none => throw .missingType
  | .sequence [] => .error .noElements
  | .sequence [type] => return ⟨← typeOf type, []⟩
  | .sequence (type :: value :: surplus) => do
    let declared ← typeOf type
    let initial ← stringOf value
    if surplus.isEmpty then return ⟨declared, initial⟩
    throw (.surplusElements (surplus.length + 2))
  | other => .error (.wrongType other.described "struct VariableDef".toList)

end Variable

namespace Schema

/-- The schema that a list of definitions declares. -/
def ofEntries (entries : List (Text × Yaml.Value)) : Except Variable.Fault Schema := do
  let definitions ← entries.mapM fun entry => do
    let declared ← Variable.ofValue entry.2
    return (entry.1, declared)
  return NameMap.ofList definitions

/-- The schema that a document declares, given by its root. -/
def ofRoot (root : Yaml.Node) : Except LoadFault Schema := do
  let entries ← root.entries.mapError LoadFault.unreadable
  (ofEntries entries).mapError (LoadFault.definition root.front.position)

/-- The schema that a text declares. A text that is not well formed is refused whatever stands in it
before the fault. -/
def ofYaml (text : Text) : Except LoadFault Schema :=
  match Yaml.Node.ofText? text with
  | some root => ofRoot root
  | none => .error (.unreadable .notWellFormed)

end Schema

end TypedVars
