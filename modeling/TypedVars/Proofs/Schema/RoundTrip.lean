import TypedVars.Proofs.Schema.Document
import TypedVars.Proofs.Yaml.Growth

/-!
# Schemas written and loaded

A schema is written as JSON and can be loaded from that text: compact JSON in printable characters
is YAML for the same tree, and every definition in it has its type and its value. Names are limited
in length because the mark of a key reaches back over a limited number of bytes; nothing else is
lost, whatever the names and values look like.
-/

set_option autoImplicit false

namespace TypedVars

/-! ## Definitions of variables -/

/-- The tag of a type is printable. -/
theorem TargetType.printable_tag (type : TargetType) : type.tag.Printable := by
  cases type <;> decide

/-- The name of a field is printable. -/
theorem Field.printable_name (field : Field) : field.name.Printable := by
  cases field <;> decide

/-- The name of a field is short enough for a key. -/
theorem Field.length_name_le (field : Field) : field.name.length ≤ 500 := by
  cases field <;> decide

namespace Variable

/-- The tokens of a written definition. -/
def tokens (declared : Variable) : List Yaml.Token :=
  Yaml.objectTokens [(Field.type.name, [.scalar declared.type.tag false]),
    (Field.value.name, [.scalar declared.value false])]

/-- The fields of a written definition. -/
def fields (declared : Variable) : List (Text × Yaml.Value) :=
  [(Field.type.name, .string declared.type.tag), (Field.value.name, .string declared.value)]

/-- A written definition declares the variable. -/
theorem declares_fields (declared : Variable) : Declares declared.fields declared :=
  ⟨⟨declared.type.tag, rfl, TargetType.ofTag?_tag declared.type⟩, .inr rfl⟩

/-- The text of a variable with a printable value is printable. -/
theorem printable_json {declared : Variable} (h : declared.value.Printable) :
    Text.Printable declared.json := by
  apply Json.printable_compactObject
  intro member hmember
  obtain rfl | rfl := List.mem_pair.1 hmember
  · exact ⟨Field.printable_name .type, Json.printable_string declared.type.printable_tag⟩
  · exact ⟨Field.printable_name .value, Json.printable_string h⟩

/-- The text of a variable with a printable value is scanned as its tokens. -/
theorem takes_json {declared : Variable} (h : declared.value.Printable) (depth : Nat) :
    Yaml.TokenReader.Takes depth false declared.json declared.tokens depth false := by
  have hfield (field : Field) {text : Text} (htext : text.Printable) :
      Yaml.TokenReader.TakesMember (depth + 1) (field.name, Json.string text)
        (field.name, [.scalar text false]) :=
    ⟨rfl, field.printable_name, field.length_name_le, Yaml.TokenReader.takes_string _ htext⟩
  exact Yaml.TokenReader.takes_object
    (.cons (hfield .type declared.type.printable_tag) (.cons (hfield .value h) .nil))

/-- The tokens of a written definition grow to its fields. -/
theorem grows_tokens (declared : Variable) : Yaml.Grows declared.tokens (record declared.fields) :=
  Yaml.grows_object
    (.cons ⟨rfl, Yaml.grows_string _⟩ (.cons ⟨rfl, Yaml.grows_string _⟩ .nil))

end Variable

/-! ## Schemas -/

namespace Schema

variable {schema : Schema}

/-- The definitions of a written schema. -/
def definitions (schema : Schema) : Definitions :=
  schema.entries.map fun entry => (entry.1, entry.2.fields)

/-- A written schema is a document that writes its definitions. -/
theorem exists_ofText?_json (h : ∀ entry ∈ schema.entries,
      entry.1.Printable ∧ entry.1.length ≤ 500 ∧ entry.2.value.Printable) :
    ∃ position pairs,
      Yaml.Node.ofText? schema.json = some (.mapping ⟨position, none, none⟩ pairs) ∧
        List.Forall₂ Yaml.Writes pairs schema.definitions.entries := by
  have hprintable : Text.Printable schema.json := by
    apply Json.printable_compactObject
    intro member hmember
    obtain ⟨entry, hentry, rfl⟩ := List.mem_map.1 hmember
    obtain ⟨hname, -, hvalue⟩ := h entry hentry
    exact ⟨hname, Variable.printable_json hvalue⟩
  have htakes : List.Forall₂ (Yaml.TokenReader.TakesMember 0)
      (schema.entries.map fun entry => (entry.1, entry.2.json))
      (schema.entries.map fun entry => (entry.1, entry.2.tokens)) := by
    rw [List.forall₂_map_left_iff, List.forall₂_map_right_iff, List.forall₂_same]
    intro entry hentry
    obtain ⟨hname, hlength, hvalue⟩ := h entry hentry
    exact ⟨rfl, hname, hlength, Variable.takes_json hvalue 0⟩
  have hgrows : List.Forall₂ Yaml.GrowsPair
      (schema.entries.map fun entry => (entry.1, entry.2.tokens)) schema.definitions.entries := by
    rw [Definitions.entries, definitions, List.map_map, List.forall₂_map_left_iff,
      List.forall₂_map_right_iff, List.forall₂_same]
    intro entry _
    exact ⟨rfl, entry.2.grows_tokens⟩
  obtain ⟨placed, htext, hplaced⟩ := Yaml.Token.exists_ofText?_compactObject htakes hprintable
  exact Yaml.Node.exists_ofText?_of_object htext hplaced hgrows

/-- A written schema keeps within the bounds of reading. -/
theorem admits_definitions (schema : Schema) (root : Yaml.Node) :
    root.Admits schema.definitions.entries 0 := by
  refine ⟨?_, Nat.zero_le _⟩
  intro entry hentry
  simp only [Definitions.entries, definitions, List.map_map, List.mem_map] at hentry
  obtain ⟨member, -, rfl⟩ := hentry
  simp [record, Variable.fields, Yaml.Value.FitsIn]

/-- A schema of printable names and values can be loaded from the JSON that it is written as. -/
theorem ofYaml_json (h : ∀ entry ∈ schema.entries,
      entry.1.Printable ∧ entry.1.length ≤ 500 ∧ entry.2.value.Printable) :
    ofYaml schema.json = .ok schema := by
  obtain ⟨position, pairs, htext, hwrites⟩ := exists_ofText?_json h
  have hentries : (Yaml.Node.mapping ⟨position, none, none⟩ pairs).entries =
      .ok schema.definitions.entries :=
    (Yaml.Node.entries_eq_ok_iff rfl _).2
      ⟨0, Yaml.Node.describes_of_writes hwrites, admits_definitions schema _⟩
  have hread : schema.definitions.mapM readDefinition = .ok schema.entries := by
    rw [mapM_eq_ok_iff, definitions, List.forall₂_map_left_iff, List.forall₂_same]
    intro entry _
    exact readDefinition_eq_ok_iff.2 ⟨rfl, entry.2.declares_fields⟩
  rw [ofYaml_of_entries htext hentries, ofEntries_entries, hread]
  exact congrArg Except.ok (NameMap.ofList_entries schema)

/-- Names and values that look like YAML of other kinds. -/
theorem ofYaml_json_lookalikes :
    let schema : Schema := NameMap.ofList
      [("<<".toList, ⟨.string, "null".toList⟩), ("type".toList, ⟨.int, "# x: y".toList⟩),
        ([], ⟨.long, "\x7ba, \x22\\".toList⟩), ("\x22: \\".toList, ⟨.boolean, []⟩)]
    ofYaml schema.json = .ok schema := by
  intro schema
  have h : ∀ entry ∈ schema.entries,
      entry.1.Printable ∧ entry.1.length ≤ 500 ∧ entry.2.value.Printable := by decide
  exact ofYaml_json h

end Schema

end TypedVars
