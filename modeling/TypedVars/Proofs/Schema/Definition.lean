import Mathlib.Data.List.Induction
import TypedVars.Schema.Loading

/-!
# Definitions of variables

A definition declares a variable when it has one type, by a tag that names one, and at most one
initial value, which is a string. Otherwise it has a fault: that of the first field which repeats
another or has a value of the wrong kind, or else that there is no type. Fields of other names play
no part.
-/

set_option autoImplicit false

namespace TypedVars

/-! ## Declarations and faults -/

/-- A mapping with strings as keys, by its fields in order. -/
def record (fields : List (Text × Yaml.Value)) : Yaml.Value :=
  .mapping (fields.map fun field => (.string field.1, field.2))

/-- The values that a definition gives for a field. -/
def valuesOf (field : Field) (fields : List (Text × Yaml.Value)) : List Yaml.Value :=
  (fields.filter fun pair => pair.1 = field.name).map Prod.snd

/-- A definition has exactly one type, a string with a tag that names it, and at most one initial
value, a string; without one the initial value is empty. -/
structure Declares (fields : List (Text × Yaml.Value)) (declared : Variable) : Prop where
  type : ∃ tag, valuesOf .type fields = [.string tag] ∧
    TargetType.ofTag? tag = some declared.type
  value : valuesOf .value fields = [] ∧ declared.value = [] ∨
    valuesOf .value fields = [.string declared.value]

/-- The fault of a field behind earlier ones. -/
inductive FieldFault (earlier : List (Text × Yaml.Value)) :
    Text × Yaml.Value → Variable.Fault → Prop
  | duplicate {field : Field} {value : Yaml.Value} (h : valuesOf field earlier ≠ []) :
      FieldFault earlier (field.name, value) (.duplicate field)
  | noString {field : Field} {value : Yaml.Value} (hnew : valuesOf field earlier = [])
      (h : ∀ text, value ≠ .string text) :
      FieldFault earlier (field.name, value) (.wrongType value.described "a string".toList)
  | unknownTag {tag : Text} (hnew : valuesOf .type earlier = [])
      (h : TargetType.ofTag? tag = none) :
      FieldFault earlier (Field.type.name, .string tag) (.unknownTag ⟨tag⟩)

/-- No field has a fault behind the fields in front of it. -/
def Faultless (fields : List (Text × Yaml.Value)) : Prop :=
  ∀ earlier next later, fields = earlier ++ next :: later → ∀ fault, ¬ FieldFault earlier next fault

/-- The fault of a definition: that of its first field with a fault, or the lack of a type. -/
inductive DefinitionFault (fields : List (Text × Yaml.Value)) : Variable.Fault → Prop
  | field {earlier later : List (Text × Yaml.Value)} {next : Text × Yaml.Value}
      {fault : Variable.Fault}
      (split : fields = earlier ++ next :: later) (faultless : Faultless earlier)
      (found : FieldFault earlier next fault) : DefinitionFault fields fault
  | missingType (faultless : Faultless fields) (h : valuesOf .type fields = []) :
      DefinitionFault fields .missingType

/-! ## Reading field by field -/

/-- The values of a field in two lists of fields are those in the first and those in the second. -/
theorem valuesOf_append (field : Field) (left right : List (Text × Yaml.Value)) :
    valuesOf field (left ++ right) = valuesOf field left ++ valuesOf field right := by
  simp [valuesOf]

/-- A pair with the name of a field adds its value to those of the field. -/
theorem valuesOf_append_cons_self (field : Field) (value : Yaml.Value)
    (earlier later : List (Text × Yaml.Value)) :
    valuesOf field (earlier ++ (field.name, value) :: later) =
      valuesOf field earlier ++ value :: valuesOf field later := by
  simp [valuesOf]

/-- A pair with another name adds no value to a field. -/
theorem valuesOf_singleton_of_ne {field : Field} {pair : Text × Yaml.Value}
    (h : pair.1 ≠ field.name) : valuesOf field [pair] = [] := by
  simp [valuesOf, h]

/-- The two fields have different names. -/
theorem Field.name_ne : Field.type.name ≠ Field.value.name := by decide

/-- What has been read of a definition: the fields that it has given so far. -/
structure Collects (earlier : List (Text × Yaml.Value)) (found : Variable.Fields) : Prop where
  type : valuesOf .type earlier = [] ∧ found.type = none ∨
    ∃ tag type, valuesOf .type earlier = [.string tag] ∧ TargetType.ofTag? tag = some type ∧
      found.type = some type
  value : valuesOf .value earlier = [] ∧ found.value = none ∨
    ∃ text, valuesOf .value earlier = [.string text] ∧ found.value = some text

/-- From no pairs no fields are collected. -/
theorem collects_nil : Collects [] ⟨none, none⟩ := ⟨.inl ⟨rfl, rfl⟩, .inl ⟨rfl, rfl⟩⟩

section

variable {earlier : List (Text × Yaml.Value)} {found : Variable.Fields}

/-- A type has been collected when a pair has given one. -/
theorem Collects.type_isSome_iff (h : Collects earlier found) :
    found.type.isSome = true ↔ valuesOf .type earlier ≠ [] := by
  rcases h.type with ⟨hvalues, hfound⟩ | ⟨tag, type, hvalues, -, hfound⟩ <;>
    simp [hvalues, hfound]

/-- An initial value has been collected when a pair has given one. -/
theorem Collects.value_isSome_iff (h : Collects earlier found) :
    found.value.isSome = true ↔ valuesOf .value earlier ≠ [] := by
  rcases h.value with ⟨hvalues, hfound⟩ | ⟨text, hvalues, hfound⟩ <;> simp [hvalues, hfound]

/-- A string names the type with that tag, or else is an unknown tag. -/
theorem typeOf_string (tag : Text) :
    typeOf (.string tag) = (TargetType.ofTag? tag).elim (.error (.unknownTag ⟨tag⟩)) .ok := by
  simp only [typeOf, stringOf, TargetType.ofTag, bind, Except.bind]
  cases TargetType.ofTag? tag <;> rfl

/-- A pair with a type is added unless there is one already. -/
theorem add_type (found : Variable.Fields) (value : Yaml.Value) :
    found.add (.string Field.type.name, value) =
      if found.type.isSome then .error (.duplicate .type)
      else (typeOf value).map fun type => { found with type := some type } := by
  show (if found.type.isSome then _ else _ : Except Variable.Fault Variable.Fields) = _
  split
  · rfl
  · show (typeOf value >>= _) = _
    cases typeOf value <;> rfl

/-- A pair with an initial value is added unless there is one already. -/
theorem add_value (found : Variable.Fields) (value : Yaml.Value) :
    found.add (.string Field.value.name, value) =
      if found.value.isSome then .error (.duplicate .value)
      else (stringOf value).map fun text => { found with value := some text } := by
  show (if found.value.isSome then _ else _ : Except Variable.Fault Variable.Fields) = _
  split
  · rfl
  · show (stringOf value >>= _) = _
    cases stringOf value <;> rfl

/-- A pair with another name changes nothing. -/
theorem add_other {pair : Text × Yaml.Value} (htype : pair.1 ≠ Field.type.name)
    (hvalue : pair.1 ≠ Field.value.name) (found : Variable.Fields) :
    found.add (.string pair.1, pair.2) = .ok found := by
  simp [Variable.Fields.add, Field.ofKey, htype, hvalue, bind, Except.bind, pure, Except.pure]

/-- A field with a fault ends the reading with it. -/
theorem add_of_fieldFault (h : Collects earlier found) {pair : Text × Yaml.Value}
    {fault : Variable.Fault} (hfault : FieldFault earlier pair fault) :
    found.add (.string pair.1, pair.2) = .error fault := by
  cases hfault with
  | @duplicate field value hold =>
    cases field with
    | type => rw [add_type, if_pos (h.type_isSome_iff.2 hold)]
    | value => rw [add_value, if_pos (h.value_isSome_iff.2 hold)]
  | @noString field value hnew hvalue =>
    have hstring : stringOf value = .error (.wrongType value.described "a string".toList) := by
      cases value with
      | string text => exact absurd rfl (hvalue text)
      | _ => rfl
    cases field with
    | type =>
      have htype : typeOf value = .error (.wrongType value.described "a string".toList) := by
        rw [typeOf, hstring]
        rfl
      rw [add_type, if_neg (mt h.type_isSome_iff.1 (not_not_intro hnew)), htype]
      rfl
    | value =>
      rw [add_value, if_neg (mt h.value_isSome_iff.1 (not_not_intro hnew)), hstring]
      rfl
  | @unknownTag tag hnew htag =>
    rw [add_type, if_neg (mt h.type_isSome_iff.1 (not_not_intro hnew)), typeOf_string, htag]
    rfl

/-- A field that is given twice has a fault. -/
theorem valuesOf_eq_nil_of_not_fieldFault {field : Field} {value : Yaml.Value}
    (hnone : ∀ fault, ¬ FieldFault earlier (field.name, value) fault) :
    valuesOf field earlier = [] :=
  Classical.not_not.1 fun hold => hnone _ (.duplicate hold)

/-- A field without a fault is collected. -/
theorem exists_add_of_not_fieldFault (h : Collects earlier found) {pair : Text × Yaml.Value}
    (hnone : ∀ fault, ¬ FieldFault earlier pair fault) :
    ∃ next, found.add (.string pair.1, pair.2) = .ok next ∧ Collects (earlier ++ [pair]) next := by
  obtain ⟨name, value⟩ := pair
  by_cases htype : name = Field.type.name
  · subst htype
    have hnew := valuesOf_eq_nil_of_not_fieldFault hnone
    have hother : valuesOf .value (earlier ++ [(Field.type.name, value)]) =
        valuesOf .value earlier := by
      rw [valuesOf_append, valuesOf_singleton_of_ne Field.name_ne, List.append_nil]
    cases value with
    | string tag =>
      cases htag : TargetType.ofTag? tag with
      | none => exact absurd (.unknownTag hnew htag) (hnone _)
      | some type =>
        refine ⟨{ found with type := some type }, ?_, .inr ⟨tag, type, ?_, htag, rfl⟩, ?_⟩
        · rw [add_type, if_neg (mt h.type_isSome_iff.1 (not_not_intro hnew)), typeOf_string, htag]
          rfl
        · rw [valuesOf_append_cons_self, hnew]
          rfl
        · rw [hother]
          exact h.value
    | _ => exact absurd (.noString hnew (by simp)) (hnone _)
  by_cases hvalue : name = Field.value.name
  · subst hvalue
    have hnew := valuesOf_eq_nil_of_not_fieldFault hnone
    have hother : valuesOf .type (earlier ++ [(Field.value.name, value)]) =
        valuesOf .type earlier := by
      rw [valuesOf_append, valuesOf_singleton_of_ne htype, List.append_nil]
    cases value with
    | string text =>
      refine ⟨{ found with value := some text }, ?_, ?_, .inr ⟨text, ?_, rfl⟩⟩
      · rw [add_value, if_neg (mt h.value_isSome_iff.1 (not_not_intro hnew))]
        rfl
      · rw [hother]
        exact h.type
      · rw [valuesOf_append_cons_self, hnew]
        rfl
    | _ => exact absurd (.noString hnew (by simp)) (hnone _)
  · refine ⟨found, add_other htype hvalue found, ?_⟩
    obtain ⟨hfoundType, hfoundValue⟩ := h
    constructor
    · rwa [valuesOf_append, valuesOf_singleton_of_ne htype, List.append_nil]
    · rwa [valuesOf_append, valuesOf_singleton_of_ne hvalue, List.append_nil]

end

/-! ## Whole definitions -/

/-- Fields are faultless when all but the last are and the last has no fault. -/
theorem faultless_append_singleton {fields : List (Text × Yaml.Value)} {last : Text × Yaml.Value} :
    Faultless (fields ++ [last]) ↔ Faultless fields ∧ ∀ fault, ¬ FieldFault fields last fault := by
  constructor
  · intro h
    constructor
    · rintro earlier next later rfl
      exact h earlier next (later ++ [last]) (by simp)
    · exact h fields last [] rfl
  · rintro ⟨hfields, hlast⟩ earlier next later heq
    rcases List.eq_nil_or_concat later with rfl | ⟨middle, final, rfl⟩
    · obtain ⟨rfl, rfl⟩ := List.append_singleton_inj.1 heq
      exact hlast
    · have hsplit : fields = earlier ++ next :: middle ∧ last = final := by
        apply List.append_singleton_inj.1
        rw [heq, List.concat_eq_append, List.append_assoc, List.cons_append]
      exact hfields earlier next middle hsplit.1

/-- Fields without a fault are collected in turn. -/
theorem exists_foldlM_of_faultless {fields : List (Text × Yaml.Value)} (h : Faultless fields) :
    ∃ found, (fields.map fun field => (Yaml.Value.string field.1, field.2)).foldlM
        Variable.Fields.add ⟨none, none⟩ = .ok found ∧ Collects fields found := by
  -- a field is judged by those in front of it, so the induction takes the fields from the end
  induction fields using List.reverseRecOn with
  | nil => exact ⟨_, rfl, collects_nil⟩
  | append_singleton earlier next ih =>
    obtain ⟨hearlier, hnext⟩ := faultless_append_singleton.1 h
    obtain ⟨found, hread, hcollects⟩ := ih hearlier
    obtain ⟨all, hadd, hall⟩ := exists_add_of_not_fieldFault hcollects hnext
    refine ⟨all, ?_, hall⟩
    rw [List.map_append, List.foldlM_append, hread]
    show (found.add _ >>= pure) = _
    rw [hadd]
    rfl

/-- Fields that are not all without a fault have a first one with a fault. -/
theorem exists_fieldFault_of_not_faultless {fields : List (Text × Yaml.Value)}
    (h : ¬ Faultless fields) :
    ∃ earlier next later fault, fields = earlier ++ next :: later ∧ Faultless earlier ∧
      FieldFault earlier next fault := by
  induction fields using List.reverseRecOn with
  | nil => exact absurd (fun earlier next later heq => by simp at heq) h
  | append_singleton front last ih =>
    rw [faultless_append_singleton, not_and_or] at h
    rcases h with hfront | hlast
    · obtain ⟨earlier, next, later, fault, rfl, hearlier, hfound⟩ := ih hfront
      exact ⟨earlier, next, later ++ [last], fault, by simp, hearlier, hfound⟩
    · by_cases hfront : Faultless front
      · obtain ⟨fault, hfound⟩ := Classical.not_forall_not.1 hlast
        exact ⟨front, last, [], fault, rfl, hfront, hfound⟩
      · obtain ⟨earlier, next, later, fault, rfl, hearlier, hfound⟩ := ih hfront
        exact ⟨earlier, next, later ++ [last], fault, by simp, hearlier, hfound⟩

/-- What is collected without a fault is a variable, unless there is no type. -/
theorem Collects.declares_iff {fields : List (Text × Yaml.Value)} {found : Variable.Fields}
    (h : Collects fields found) (declared : Variable) :
    Declares fields declared ↔
      found.type = some declared.type ∧ found.value.getD [] = declared.value := by
  constructor
  · rintro ⟨⟨tag, htag, htype⟩, hvalue⟩
    constructor
    · rcases h.type with ⟨hnone, -⟩ | ⟨other, type, hother, hread, hfound⟩
      · rw [htag] at hnone
        simp at hnone
      · rw [htag] at hother
        obtain rfl : tag = other := by simpa using hother
        rw [hfound, ← hread, htype]
    · rcases h.value with ⟨hnone, hfound⟩ | ⟨text, hsome, hfound⟩
      · rcases hvalue with ⟨-, hempty⟩ | hsome
        · rw [hfound, hempty]
          rfl
        · rw [hsome] at hnone
          simp at hnone
      · rcases hvalue with ⟨hnone, -⟩ | hother
        · rw [hsome] at hnone
          simp at hnone
        · rw [hsome] at hother
          obtain rfl : text = declared.value := by simpa using hother
          rw [hfound]
          rfl
  · rintro ⟨htype, hvalue⟩
    constructor
    · rcases h.type with ⟨-, hnone⟩ | ⟨tag, type, htag, hread, hfound⟩
      · rw [htype] at hnone
        simp at hnone
      · rw [hfound] at htype
        exact ⟨tag, htag, by rw [hread, htype]⟩
    · rcases h.value with ⟨hnone, hfound⟩ | ⟨text, hsome, hfound⟩
      · rw [hfound] at hvalue
        exact .inl ⟨hnone, hvalue.symm⟩
      · rw [hfound] at hvalue
        obtain rfl : text = declared.value := hvalue
        exact .inr hsome

/-- A definition whose fields are collected needs a type only. -/
theorem ofValue_of_collects {fields : List (Text × Yaml.Value)} {found : Variable.Fields}
    (hread : (fields.map fun field => (Yaml.Value.string field.1, field.2)).foldlM
      Variable.Fields.add ⟨none, none⟩ = .ok found) :
    Variable.ofValue (record fields) =
      found.type.elim (.error .missingType) fun type => .ok ⟨type, found.value.getD []⟩ := by
  show (List.foldlM _ _ _ >>= _ : Except Variable.Fault Variable) = _
  rw [hread]
  cases found with
  | mk type value => cases type <;> rfl

/-- The first fault of a field is the fault of the definition. -/
theorem ofValue_of_fieldFault {fields earlier later : List (Text × Yaml.Value)}
    {next : Text × Yaml.Value} {fault : Variable.Fault} (hsplit : fields = earlier ++ next :: later)
    (hearlier : Faultless earlier) (hfault : FieldFault earlier next fault) :
    Variable.ofValue (record fields) = .error fault := by
  obtain ⟨found, hread, hcollects⟩ := exists_foldlM_of_faultless hearlier
  have hadd := add_of_fieldFault hcollects hfault
  show (List.foldlM _ _ (fields.map _) >>= _ : Except Variable.Fault Variable) = _
  rw [hsplit, List.map_append, List.foldlM_append, hread]
  show ((found.add _ >>= _) >>= _ : Except Variable.Fault Variable) = _
  rw [hadd]
  rfl

/-- A definition of a variable gives a field at most once, and as a string. -/
theorem Declares.valuesOf_eq {fields : List (Text × Yaml.Value)} {declared : Variable}
    (h : Declares fields declared) (field : Field) :
    valuesOf field fields = [] ∨ ∃ text, valuesOf field fields = [.string text] := by
  cases field with
  | type =>
    obtain ⟨tag, htag, -⟩ := h.type
    exact .inr ⟨tag, htag⟩
  | value => exact h.value.imp And.left fun hvalue => ⟨declared.value, hvalue⟩

/-- A definition that declares a variable has no fault. -/
theorem Declares.faultless {fields : List (Text × Yaml.Value)} {declared : Variable}
    (h : Declares fields declared) : Faultless fields := by
  rintro earlier ⟨name, value⟩ later rfl fault hfault
  have hsplit (field : Field) (hname : name = field.name) :
      valuesOf field earlier = [] ∧ ∃ text, value = .string text := by
    subst hname
    rcases h.valuesOf_eq field with hnone | ⟨text, hone⟩
    · rw [valuesOf_append_cons_self] at hnone
      simp at hnone
    · rw [valuesOf_append_cons_self, List.append_eq_singleton_iff] at hone
      rcases hone with ⟨hnil, hvalue⟩ | ⟨-, hnil⟩
      · exact ⟨hnil, text, (List.cons.inj hvalue).1⟩
      · simp at hnil
  cases hfault with
  | @duplicate field _ hold => exact hold (hsplit field rfl).1
  | @noString field _ hnew hvalue =>
    obtain ⟨-, text, htext⟩ := hsplit field rfl
    exact hvalue text htext
  | @unknownTag tag hnew hnone =>
    obtain ⟨other, hother, htype⟩ := h.type
    rw [valuesOf_append_cons_self, hnew, List.nil_append] at hother
    obtain rfl : tag = other := by simpa using (List.cons.inj hother).1
    rw [hnone] at htype
    simp at htype

/-- A definition is read as the variable that it declares. -/
theorem ofValue_record_eq_ok_iff {fields : List (Text × Yaml.Value)} {declared : Variable} :
    Variable.ofValue (record fields) = .ok declared ↔ Declares fields declared := by
  constructor
  · intro h
    by_cases hfields : Faultless fields
    · obtain ⟨found, hread, hcollects⟩ := exists_foldlM_of_faultless hfields
      rw [ofValue_of_collects hread] at h
      cases htype : found.type with
      | none => simp [htype] at h
      | some type =>
        rw [htype] at h
        obtain rfl := Except.ok.inj h
        exact (hcollects.declares_iff _).2 ⟨htype, rfl⟩
    · obtain ⟨earlier, next, later, fault, hsplit, hearlier, hfault⟩ :=
        exists_fieldFault_of_not_faultless hfields
      rw [ofValue_of_fieldFault hsplit hearlier hfault] at h
      simp at h
  · intro h
    obtain ⟨found, hread, hcollects⟩ := exists_foldlM_of_faultless h.faultless
    obtain ⟨htype, hvalue⟩ := (hcollects.declares_iff declared).1 h
    rw [ofValue_of_collects hread, htype, hvalue]
    rfl

/-- A definition that cannot be read is refused for its fault. -/
theorem ofValue_record_eq_error_iff {fields : List (Text × Yaml.Value)} {fault : Variable.Fault} :
    Variable.ofValue (record fields) = .error fault ↔ DefinitionFault fields fault := by
  constructor
  · intro h
    by_cases hfields : Faultless fields
    · obtain ⟨found, hread, hcollects⟩ := exists_foldlM_of_faultless hfields
      rw [ofValue_of_collects hread] at h
      cases hnone : found.type with
      | some type => simp [hnone] at h
      | none =>
        rw [hnone] at h
        obtain rfl := Except.error.inj h
        refine .missingType hfields ?_
        rcases hcollects.type with ⟨hempty, -⟩ | ⟨tag, type, -, -, hsome⟩
        · exact hempty
        · rw [hsome] at hnone
          simp at hnone
    · obtain ⟨earlier, next, later, found, hsplit, hearlier, hfound⟩ :=
        exists_fieldFault_of_not_faultless hfields
      rw [ofValue_of_fieldFault hsplit hearlier hfound] at h
      obtain rfl := Except.error.inj h
      exact .field hsplit hearlier hfound
  · intro h
    cases h with
    | field hsplit hearlier hfound => exact ofValue_of_fieldFault hsplit hearlier hfound
    | missingType hfields hempty =>
      obtain ⟨found, hread, hcollects⟩ := exists_foldlM_of_faultless hfields
      have hnone : found.type = none := by
        rw [← Option.not_isSome_iff_eq_none, hcollects.type_isSome_iff]
        exact not_not_intro hempty
      rw [ofValue_of_collects hread, hnone]
      rfl

end TypedVars
