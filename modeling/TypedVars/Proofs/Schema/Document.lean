import Mathlib.Data.List.Forall2
import TypedVars.Proofs.Schema.Definition
import TypedVars.Proofs.Store.NameMap
import TypedVars.Proofs.Yaml.Location
import TypedVars.Store.Step

/-!
# Loading a document

A document within the bounds of reading is loaded whole or not at all. It is loaded when each of its
definitions declares a variable, those of repeated names too, and then the last definition of a name
counts; otherwise the first definition with a fault decides, and the fault has the position of the
root. Beyond the bounds nothing is loaded, even if what is too large stands where a definition is
not looked at, and a fault of a node names the first such node by its path and its position.
-/

set_option autoImplicit false

namespace TypedVars

/-! ## Reading a list in order -/

section

variable {α β ε : Type} {read : α → Except ε β}

/-- A list is read as the list of what its items are read as. -/
theorem mapM_eq_ok_iff {items : List α} {results : List β} :
    items.mapM read = .ok results ↔
      List.Forall₂ (fun item result => read item = .ok result) items results := by
  induction items generalizing results with
  | nil =>
    rw [List.mapM_nil, List.forall₂_nil_left_iff]
    show Except.ok [] = .ok results ↔ _
    rw [Except.ok.injEq, eq_comm]
  | cons item items ih =>
    rw [List.mapM_cons, List.forall₂_cons_left_iff]
    cases hitem : read item with
    | error fault => simp [bind, Except.bind]
    | ok result =>
      cases hitems : items.mapM read with
      | error fault =>
        have hnone (rest : List β) :
            ¬ List.Forall₂ (fun item result => read item = .ok result) items rest := by
          rw [← ih, hitems]
          simp
        simp [bind, Except.bind, hnone]
      | ok rest =>
        constructor
        · intro h
          obtain rfl := Except.ok.inj h
          exact ⟨result, rest, rfl, ih.1 hitems, rfl⟩
        · rintro ⟨_, others, hsame, hothers, rfl⟩
          obtain rfl := Except.ok.inj hsame
          rw [← ih, hitems] at hothers
          obtain rfl := Except.ok.inj hothers
          rfl

/-- The first item that cannot be read decides. -/
theorem mapM_eq_error_iff {items : List α} {fault : ε} :
    items.mapM read = .error fault ↔
      ∃ earlier item later, items = earlier ++ item :: later ∧
        (∀ other ∈ earlier, ∃ result, read other = .ok result) ∧ read item = .error fault := by
  induction items with
  | nil => simp [pure, Except.pure]
  | cons first items ih =>
    rw [List.mapM_cons]
    cases hfirst : read first with
    | error found =>
      constructor
      · intro h
        obtain rfl := Except.error.inj h
        exact ⟨[], first, items, rfl, by simp, hfirst⟩
      · rintro ⟨earlier, item, later, hsplit, hearlier, hitem⟩
        cases earlier with
        | nil =>
          obtain ⟨rfl, rfl⟩ := List.cons.inj hsplit
          rw [hitem] at hfirst
          obtain rfl := Except.error.inj hfirst
          rfl
        | cons other earlier =>
          obtain ⟨rfl, -⟩ := List.cons.inj hsplit
          obtain ⟨result, hresult⟩ := hearlier first (List.mem_cons_self ..)
          rw [hfirst] at hresult
          simp at hresult
    | ok result =>
      have hrest : (Except.ok result >>= fun result => do
          let results ← items.mapM read
          pure (result :: results)) = .error fault ↔ items.mapM read = .error fault := by
        cases items.mapM read <;> simp [bind, Except.bind, pure, Except.pure]
      rw [hrest, ih]
      constructor
      · rintro ⟨earlier, item, later, rfl, hearlier, hitem⟩
        exact ⟨first :: earlier, item, later, rfl,
          List.forall_mem_cons.2 ⟨⟨result, hfirst⟩, hearlier⟩, hitem⟩
      · rintro ⟨earlier, item, later, hsplit, hearlier, hitem⟩
        cases earlier with
        | nil =>
          obtain ⟨rfl, rfl⟩ := List.cons.inj hsplit
          rw [hitem] at hfirst
          simp at hfirst
        | cons other earlier =>
          obtain ⟨rfl, rfl⟩ := List.cons.inj hsplit
          exact ⟨earlier, item, later, rfl, (List.forall_mem_cons.1 hearlier).2, hitem⟩

/-- A list is read when each of its items is. -/
theorem exists_mapM_eq_ok_iff {items : List α} :
    (∃ results, items.mapM read = .ok results) ↔
      ∀ item ∈ items, ∃ result, read item = .ok result := by
  constructor
  · rintro ⟨results, h⟩
    rw [mapM_eq_ok_iff] at h
    induction h with
    | nil => simp
    | cons hitem _ ih => exact List.forall_mem_cons.2 ⟨⟨_, hitem⟩, ih⟩
  · intro h
    cases hread : items.mapM read with
    | ok results => exact ⟨results, rfl⟩
    | error fault =>
      obtain ⟨earlier, item, later, rfl, -, hitem⟩ := mapM_eq_error_iff.1 hread
      obtain ⟨result, hresult⟩ := h item (by simp)
      rw [hitem] at hresult
      simp at hresult

end

/-! ## Documents by their definitions -/

/-- Definitions in the order of a document: names, each with the fields of its definition. -/
abbrev Definitions := List (Text × List (Text × Yaml.Value))

namespace Definitions

/-- The entries of a document that gives the definitions as mappings. -/
def entries (definitions : Definitions) : List (Text × Yaml.Value) :=
  definitions.map fun definition => (definition.1, record definition.2)

/-- Every definition declares a variable, even if a later one has the same name. -/
def Sound (definitions : Definitions) : Prop :=
  ∀ definition ∈ definitions, ∃ declared, Declares definition.2 declared

/-- The fault of the first definition that declares no variable. -/
def FirstFault (definitions : Definitions) (fault : Variable.Fault) : Prop :=
  ∃ earlier name fields later, definitions = earlier ++ (name, fields) :: later ∧ Sound earlier ∧
    DefinitionFault fields fault

/-- A schema has the names of the definitions, each with the variable of its last definition. -/
structure Gives (definitions : Definitions) (schema : Schema) : Prop where
  names : ∀ name, name ∈ schema.entries.map Prod.fst ↔ name ∈ definitions.map Prod.fst
  last : ∀ name declared, schema.get? name = some declared ↔
    ∃ fields, NameMap.lastOf definitions name = some fields ∧ Declares fields declared

end Definitions

/-- Fields declare one variable at most. -/
theorem Declares.unique {fields : List (Text × Yaml.Value)} {declared other : Variable}
    (h : Declares fields declared) (hother : Declares fields other) : declared = other := by
  rw [← ofValue_record_eq_ok_iff] at h hother
  rw [h] at hother
  exact Except.ok.inj hother

/-- Look-ups in lists with the same names and related values. -/
theorem NameMap.find?_eq_some_iff_of_forall₂ {α β : Type} {R : α → β → Prop}
    (hunique : ∀ a b c, R a b → R a c → b = c) {left : List (Text × α)} {right : List (Text × β)}
    (h : List.Forall₂ (fun a b => a.1 = b.1 ∧ R a.2 b.2) left right) (name : Text) (b : β) :
    find? right name = some b ↔ ∃ a, find? left name = some a ∧ R a b := by
  induction h with
  | nil => simp [find?_nil]
  | @cons first second _ _ hfirst _ ih =>
    rw [find?_cons, find?_cons, ← hfirst.1]
    split
    · constructor
      · intro heq
        obtain rfl := Option.some.inj heq
        exact ⟨first.2, rfl, hfirst.2⟩
      · rintro ⟨a, heq, hab⟩
        obtain rfl := Option.some.inj heq
        rw [hunique _ _ _ hfirst.2 hab]
    · exact ih

namespace Schema

/-- Reads a definition with its name. -/
def readDefinition (definition : Text × List (Text × Yaml.Value)) :
    Except Variable.Fault (Text × Variable) :=
  (Variable.ofValue (record definition.2)).map fun declared => (definition.1, declared)

section

variable {definition : Text × List (Text × Yaml.Value)}

/-- A definition is read as the variable that its fields declare, under its name. -/
theorem readDefinition_eq_ok_iff {result : Text × Variable} :
    readDefinition definition = .ok result ↔
      definition.1 = result.1 ∧ Declares definition.2 result.2 := by
  obtain ⟨name, declared⟩ := result
  rw [readDefinition, ← ofValue_record_eq_ok_iff]
  cases Variable.ofValue (record definition.2) <;> simp [Except.map]

/-- The fault of reading a definition is that of its fields. -/
theorem readDefinition_eq_error_iff {fault : Variable.Fault} :
    readDefinition definition = .error fault ↔ DefinitionFault definition.2 fault := by
  rw [readDefinition, ← ofValue_record_eq_error_iff]
  cases Variable.ofValue (record definition.2) <;> simp [Except.map]

/-- A definition is read when its fields declare a variable. -/
theorem exists_readDefinition_iff :
    (∃ result, readDefinition definition = .ok result) ↔
      ∃ declared, Declares definition.2 declared := by
  constructor
  · rintro ⟨result, hresult⟩
    exact ⟨result.2, (readDefinition_eq_ok_iff.1 hresult).2⟩
  · rintro ⟨declared, hdeclared⟩
    exact ⟨(definition.1, declared), readDefinition_eq_ok_iff.2 ⟨rfl, hdeclared⟩⟩

end

variable {definitions : Definitions}

/-- The schema of definitions is the map of the definitions read in order. -/
theorem ofEntries_entries (definitions : Definitions) :
    ofEntries definitions.entries =
      (definitions.mapM readDefinition).map NameMap.ofList := by
  have hread (definition : Text × List (Text × Yaml.Value)) :
      (Variable.ofValue (record definition.2) >>= fun declared => pure (definition.1, declared)) =
        readDefinition definition := by
    rw [readDefinition]
    cases Variable.ofValue (record definition.2) <;> rfl
  unfold ofEntries Definitions.entries
  rw [List.mapM_map]
  simp only [Function.comp_def, hread]
  cases definitions.mapM readDefinition <;> rfl

/-- The last definition of a name decides its variable. -/
theorem gives_ofList {declared : List (Text × Variable)}
    (h : List.Forall₂ (fun definition entry => readDefinition definition = .ok entry)
      definitions declared) : definitions.Gives (NameMap.ofList declared) := by
  simp only [readDefinition_eq_ok_iff] at h
  constructor
  · intro name
    have hnames : definitions.map Prod.fst = declared.map Prod.fst := by
      induction h with
      | nil => rfl
      | cons hfirst _ ih => rw [List.map_cons, List.map_cons, hfirst.1, ih]
    rw [NameMap.mem_names_ofList, hnames]
  · intro name found
    have hreverse : List.Forall₂ (fun definition entry => definition.1 = entry.1 ∧
        Declares definition.2 entry.2) definitions.reverse declared.reverse :=
      List.forall₂_reverse_iff.2 h
    rw [NameMap.get?_ofList]
    exact NameMap.find?_eq_some_iff_of_forall₂ (R := Declares)
      (fun _ _ _ => Declares.unique) hreverse name found

/-- The first definition with a fault decides, wherever its name stands again. -/
theorem ofEntries_eq_error_iff {fault : Variable.Fault} :
    ofEntries definitions.entries = .error fault ↔ definitions.FirstFault fault := by
  have hmap : ofEntries definitions.entries = .error fault ↔
      definitions.mapM readDefinition = .error fault := by
    rw [ofEntries_entries]
    cases definitions.mapM readDefinition <;> simp [Except.map]
  rw [hmap, mapM_eq_error_iff]
  simp only [exists_readDefinition_iff, readDefinition_eq_error_iff]
  constructor
  · rintro ⟨earlier, ⟨name, fields⟩, later, hsplit, hearlier, hfault⟩
    exact ⟨earlier, name, fields, later, hsplit, hearlier, hfault⟩
  · rintro ⟨earlier, name, fields, later, hsplit, hearlier, hfault⟩
    exact ⟨earlier, (name, fields), later, hsplit, hearlier, hfault⟩

/-- The schema of definitions gives each name its last definition. -/
theorem gives_of_ofEntries {schema : Schema} (h : ofEntries definitions.entries = .ok schema) :
    definitions.Gives schema := by
  rw [ofEntries_entries] at h
  cases hread : definitions.mapM readDefinition with
  | error fault => simp [hread, Except.map] at h
  | ok declared =>
    rw [hread] at h
    obtain rfl := Except.ok.inj h
    exact gives_ofList (mapM_eq_ok_iff.1 hread)

/-- Definitions are loaded all together or not at all. -/
theorem exists_ofEntries_iff :
    (∃ schema, ofEntries definitions.entries = .ok schema) ↔ definitions.Sound := by
  have hmap : (∃ schema, ofEntries definitions.entries = .ok schema) ↔
      ∃ declared, definitions.mapM readDefinition = .ok declared := by
    rw [ofEntries_entries]
    cases definitions.mapM readDefinition <;> simp [Except.map]
  rw [hmap, exists_mapM_eq_ok_iff]
  simp only [exists_readDefinition_iff]
  rfl

/-! ## Loading a text -/

section

variable {text : Text} {root : Yaml.Node} {front : Yaml.Front}
  {pairs : List (Yaml.Node × Yaml.Node)}

/-- The entries of a document decide, and a fault of theirs has the position of the root. -/
theorem ofYaml_of_entries (htext : Yaml.Node.ofText? text = some root)
    {entries : List (Text × Yaml.Value)} (h : root.entries = .ok entries) :
    ofYaml text = (ofEntries entries).mapError (.definition root.front.position) := by
  rw [ofYaml, htext]
  show ofRoot root = _
  rw [ofRoot, h]
  rfl

/-- A fault of the reading is the fault of the text. -/
theorem ofYaml_of_unreadable (htext : Yaml.Node.ofText? text = some root)
    {fault : Yaml.ReadFault} (h : root.entries = .error fault) :
    ofYaml text = .error (.unreadable fault) := by
  rw [ofYaml, htext]
  show ofRoot root = _
  rw [ofRoot, h]
  rfl

/-- A document is unreadable for the faults of its reading only. -/
theorem entries_of_unreadable (htext : Yaml.Node.ofText? text = some root)
    {fault : Yaml.ReadFault} (h : ofYaml text = .error (.unreadable fault)) :
    root.entries = .error fault := by
  cases hentries : root.entries with
  | error other =>
    rw [ofYaml_of_unreadable htext hentries] at h
    simpa using h
  | ok entries =>
    rw [ofYaml_of_entries htext hentries] at h
    cases hread : ofEntries entries <;> simp [hread, Except.mapError] at h

/-- A text that is refused leaves every store as it is. -/
theorem take_load_of_error {fault : LoadFault} (h : ofYaml text = .error fault) (store : Store) :
    store.take (.load text) = .error (.load fault) ∧ store.after (.load text) = store := by
  have htake : store.take (.load text) = .error (.load fault) := by
    rw [Store.take, h]
  refine ⟨htake, ?_⟩
  rw [Store.after, htake]

/-- A document of definitions is loaded whole, or else refused for its first definition with a
fault, at the position of the root, if it keeps within the bounds of reading; beyond them nothing is
loaded, and a problem with a node is the first one, named by its path and its position. A refused
document leaves every store as it is. -/
theorem ofYaml_document (htext : Yaml.Node.ofText? text = some root)
    (hroot : root = .mapping front pairs) :
    (∀ (definitions : Definitions) (count : Nat), root.Describes definitions.entries count →
      root.Admits definitions.entries count →
      ((∃ schema, ofYaml text = .ok schema) ↔ definitions.Sound) ∧
      (∀ schema, ofYaml text = .ok schema → definitions.Gives schema) ∧
      ∀ fault, ofYaml text = .error fault ↔
        ∃ problem, fault = .definition front.position problem ∧ definitions.FirstFault problem) ∧
    ((∀ entries count, root.Describes entries count → ¬ root.Admits entries count) →
      ∃ fault, ofYaml text = .error (.unreadable fault)) ∧
    (∀ path position problem, ofYaml text = .error (.unreadable (.node path position problem)) →
      root.Locates path position problem) ∧
    ∀ (store : Store) fault, ofYaml text = .error fault →
      store.take (.load text) = .error (.load fault) ∧ store.after (.load text) = store := by
  refine ⟨?_, ?_, ?_, fun store fault hfault => take_load_of_error hfault store⟩
  · intro definitions count hdescribes hadmits
    have hentries : root.entries = .ok definitions.entries :=
      (Yaml.Node.entries_eq_ok_iff hroot _).2 ⟨count, hdescribes, hadmits⟩
    have hposition : root.front.position = front.position := by rw [hroot, Yaml.Node.front]
    rw [ofYaml_of_entries htext hentries, hposition]
    refine ⟨?_, ?_, ?_⟩
    · rw [← exists_ofEntries_iff]
      cases ofEntries definitions.entries <;> simp [Except.mapError]
    · intro schema hschema
      apply gives_of_ofEntries
      cases hread : ofEntries definitions.entries with
      | error problem => simp [hread, Except.mapError] at hschema
      | ok read =>
        rw [hread] at hschema
        obtain rfl := Except.ok.inj hschema
        rfl
    · intro fault
      simp only [← ofEntries_eq_error_iff]
      cases ofEntries definitions.entries <;> simp [Except.mapError, eq_comm]
  · intro hbeyond
    cases hentries : root.entries with
    | error fault => exact ⟨fault, ofYaml_of_unreadable htext hentries⟩
    | ok entries =>
      obtain ⟨count, hdescribes, hadmits⟩ := (Yaml.Node.entries_eq_ok_iff hroot _).1 hentries
      exact absurd hadmits (hbeyond entries count hdescribes)
  · intro path position problem hfault
    exact Yaml.Node.locates_of_entries hroot (entries_of_unreadable htext hfault)

end

open Yaml in
/-- A tag of strings, an alias, an ignored field of a definition, and a name given twice. -/
theorem ofYaml_document_alias :
    ∃ schema, ofYaml ("n: &d \x7btype: int, value: !!str 1, note: [2, ~]\x7d\nm: *d\n".toList ++
        "n: \x7bvalue: '', type: LONG\x7d".toList) = .ok schema ∧
      schema.get? ['n'] = some ⟨.long, []⟩ ∧ schema.get? ['m'] = some ⟨.int, ['1']⟩ := by
  let front (line column : Nat) : Front := ⟨⟨line, column⟩, none, none⟩
  let plain (line column : Nat) (text : String) : Node :=
    .scalar (front line column) text.toList true
  let stringTag : Tag := ⟨coreAddress ++ shortBytes "str".toList⟩
  let note : Node := .sequence (front 0 40) [plain 0 41 "2", plain 0 44 "~"]
  let parts : List (Node × Node) := [(plain 0 7 "type", plain 0 13 "int"),
    (plain 0 18 "value", .scalar ⟨⟨0, 25⟩, none, some stringTag⟩ ['1'] true),
    (plain 0 34 "note", note)]
  let other : List (Node × Node) := [(plain 2 4 "value", .scalar (front 2 11) [] false),
    (plain 2 15 "type", plain 2 21 "LONG")]
  let root : Node := .mapping (front 0 0)
    [(plain 0 0 "n", .mapping ⟨⟨0, 3⟩, some 0, none⟩ parts), (plain 1 0 "m", .alias 0),
      (plain 2 0 "n", .mapping (front 2 3) other)]
  let fields : List (Text × Value) := [("type".toList, .string "int".toList),
    ("value".toList, .string "1".toList), ("note".toList, .sequence [.natural 2, .unit])]
  let last : List (Text × Value) :=
    [("value".toList, .string []), ("type".toList, .string "LONG".toList)]
  let definitions : Definitions := [(['n'], fields), (['m'], fields), (['n'], last)]
  have htext : Node.ofText?
      ("n: &d \x7btype: int, value: !!str 1, note: [2, ~]\x7d\nm: *d\n".toList ++
        "n: \x7bvalue: '', type: LONG\x7d".toList) = some root := by
    decide +kernel
  have hnote (nodes : List (Nat × Node)) : Stands nodes note (.sequence [.natural 2, .unit]) 0 :=
    Stands.ofSequence rfl (.cons (Stands.ofScalar rfl rfl) (.cons (Stands.ofScalar rfl rfl) .nil))
  have hparts (nodes : List (Nat × Node)) : Counted (Paired (Stands nodes) (Stands nodes)) parts
      (fields.map fun field => (.string field.1, field.2)) 0 :=
    .pair (Stands.ofScalar rfl rfl) (Stands.ofScalar rfl rfl)
      (.pair (Stands.ofScalar rfl rfl) (Stands.ofScalar rfl rfl)
        (.pair (Stands.ofScalar rfl rfl) (hnote nodes) .nil))
  have hother (nodes : List (Nat × Node)) : Counted (Paired (Stands nodes) (Stands nodes)) other
      (last.map fun field => (.string field.1, field.2)) 0 :=
    .pair (Stands.ofScalar rfl rfl) (Stands.ofScalar rfl rfl)
      (.pair (Stands.ofScalar rfl rfl) (Stands.ofScalar rfl rfl) .nil)
  have hlookup : root.anchored.reverse.lookup 0 =
      some (.mapping ⟨⟨0, 3⟩, some 0, none⟩ parts) := by rfl
  have hdescribes : root.Describes definitions.entries 1 :=
    ⟨front 0 0, _, rfl, .pair (Names.ofScalar ..) (Stands.ofMapping rfl (hparts _))
      (.pair (Names.ofScalar ..) (Stands.mapping (.alias hlookup) rfl (hparts _))
        (.pair (Names.ofScalar ..) (Stands.ofMapping rfl (hother _)) .nil))⟩
  have hadmits : root.Admits definitions.entries 1 := by
    constructor
    · simp [definitions, Definitions.entries, record, fields, last, Value.FitsIn]
    · decide
  obtain ⟨⟨-, hload⟩, hgives, -⟩ := (ofYaml_document htext rfl).1 definitions 1 hdescribes hadmits
  have hfields : Declares fields ⟨.int, ['1']⟩ := ⟨⟨_, rfl, by decide⟩, .inr rfl⟩
  have hfinal : Declares last ⟨.long, []⟩ := ⟨⟨_, rfl, by decide⟩, .inr rfl⟩
  have hsound : definitions.Sound := by
    simp only [Definitions.Sound, definitions, List.forall_mem_cons]
    exact ⟨⟨_, hfields⟩, ⟨_, hfields⟩, ⟨_, hfinal⟩, by simp⟩
  obtain ⟨schema, hschema⟩ := hload hsound
  obtain ⟨-, hlastOf⟩ := hgives schema hschema
  refine ⟨schema, hschema, (hlastOf _ _).2 ⟨last, rfl, hfinal⟩, ?_⟩
  exact (hlastOf _ _).2 ⟨fields, rfl, hfields⟩

/-- A document with an ignored field that is too wide is not loaded, though its definition is
sound. -/
theorem not_forall_exists_ofYaml_iff_sound :
    ¬ ∀ (text : Text) (root : Yaml.Node) (definitions : Definitions) (count : Nat),
      Yaml.Node.ofText? text = some root → root.Describes definitions.entries count →
      ((∃ schema, ofYaml text = .ok schema) ↔ definitions.Sound) := by
  intro h
  let front (column : Nat) : Yaml.Front := ⟨⟨0, column⟩, none, none⟩
  let plain (column : Nat) (text : String) : Yaml.Node := .scalar (front column) text.toList true
  let root : Yaml.Node := .mapping (front 0) [(plain 0 "x", .mapping (front 3)
    [(plain 4 "type", plain 10 "INT"), (plain 15 "note", plain 21 "18446744073709551616")])]
  let fields : List (Text × Yaml.Value) :=
    [("type".toList, .string "INT".toList), ("note".toList, .natural 18446744073709551616)]
  have htext : Yaml.Node.ofText? "x: \x7btype: INT, note: 18446744073709551616\x7d".toList =
      some root := by
    decide +kernel
  have hdescribes : root.Describes (Definitions.entries [(['x'], fields)]) 0 :=
    ⟨front 0, _, rfl, .pair (Yaml.Names.ofScalar ..) (Yaml.Stands.ofMapping rfl
      (.pair (Yaml.Stands.ofScalar rfl rfl) (Yaml.Stands.ofScalar rfl rfl)
        (.pair (Yaml.Stands.ofScalar rfl rfl) (Yaml.Stands.ofScalar rfl rfl) .nil))) .nil⟩
  have hfields : Declares fields ⟨.int, []⟩ := ⟨⟨_, rfl, by decide⟩, .inl ⟨rfl, rfl⟩⟩
  have hsound : Definitions.Sound [(['x'], fields)] := by
    simp only [Definitions.Sound, List.forall_mem_singleton]
    exact ⟨_, hfields⟩
  obtain ⟨schema, hschema⟩ := (h _ root _ 0 htext hdescribes).2 hsound
  have hrefused :
      (ofYaml "x: \x7btype: INT, note: 18446744073709551616\x7d".toList).isOk = false := by
    decide +kernel
  rw [hschema] at hrefused
  simp [Except.isOk, Except.toBool] at hrefused

end Schema

end TypedVars
