import TypedVars.Proofs.Store.NameMap
import TypedVars.Proofs.Substitution.Template

/-!
# Names without a placeholder

A binding of which the placeholder does not occur in a text leaves the text alone, whatever its
value. The placeholders that occur in the text of a template are its holes, and values without an
opening brace bring no new ones. So giving a name another value changes nothing for a template
without a hole for it, and a placeholder alone stands for the value of its own name, whatever braces
the other names and values have.
-/

set_option autoImplicit false

namespace TypedVars

/-- Replacing a pattern that does not occur changes nothing. -/
theorem Text.replaceAll_of_absent {pattern text : Text} (h : ¬ pattern <:+: text)
    (replacement : Text) : replaceAll pattern replacement text = text := by
  induction text with
  | nil => rw [replaceAll]
  | cons c rest ih =>
    rw [List.infix_cons_iff, not_or] at h
    obtain ⟨hfront, hrest⟩ := h
    rw [← List.isPrefixOf_iff_prefix] at hfront
    rw [replaceAll, if_neg hfront, ih hrest]

/-- Substituting a name without a placeholder in the text changes nothing. -/
theorem substitute_of_absent {text name : Text} (h : ¬ placeholder name <:+: text)
    (value : Text) : substitute text name value = text :=
  Text.replaceAll_of_absent h value

/-- Bindings are substituted one after the other, the first one first. -/
theorem substituteAll_cons (text : Text) (binding : Text × Text) (later : List (Text × Text)) :
    substituteAll text (binding :: later) =
      substituteAll (substitute text binding.1 binding.2) later := rfl

/-- No placeholder occurs in a text without an opening brace. -/
theorem not_placeholder_infix_of_unopened {text : Text} (h : '\x7b' ∉ text) (name : Text) :
    ¬ placeholder name <:+: text := by
  intro hinfix
  apply h
  exact hinfix.subset (by simp [placeholder])

/-- No placeholder begins in front of the first opening brace. -/
theorem placeholder_infix_unopened_append_iff {front : Text} (h : '\x7b' ∉ front)
    (name rest : Text) :
    placeholder name <:+: front ++ rest ↔ placeholder name <:+: rest := by
  constructor
  · intro hinfix
    rcases List.infix_append_iff_ne_nil.1 hinfix with
      hinside | hbehind | ⟨left, right, hne, -, hsplit, hsuffix, -⟩
    · exact absurd hinside (not_placeholder_infix_of_unopened h name)
    · exact hbehind
    · -- the part in the front would start with the brace
      obtain ⟨c, left, rfl⟩ := List.exists_cons_of_ne_nil hne
      obtain rfl : '\x7b' = c := (List.cons.inj hsplit).1
      exact absurd (hsuffix.subset (by simp)) h
  · exact List.infix_append_of_infix_right

/-- At a placeholder there is no other one, and none reaches out of it. -/
theorem placeholder_infix_placeholder_append_iff {name other : Text} (hname : BraceFree name)
    (hother : BraceFree other) (rest : Text) :
    placeholder name <:+: placeholder other ++ rest ↔
      name = other ∨ placeholder name <:+: rest := by
  have hcons : placeholder other ++ rest = '\x7b' :: (other ++ ['\x7d'] ++ rest) := by
    simp [placeholder]
  have hunopened : '\x7b' ∉ other ++ ['\x7d'] := by
    simpa using hother.1
  rw [hcons, List.infix_cons_iff, ← hcons, placeholder_prefix_append_iff hname hother,
    placeholder_infix_unopened_append_iff hunopened]

/-! ## Holes -/

namespace Template

/-- The name of a hole. -/
def Part.name? : Part → Option Text
  | chunk _ _ => none
  | hole name _ => some name

/-- The names of the holes of a template, in the order of the holes. -/
def names (template : Template) : List Text := template.filterMap Part.name?

/-- The placeholders in the text of a template are its holes. -/
theorem placeholder_infix_text_iff {name : Text} (hname : BraceFree name) (template : Template) :
    placeholder name <:+: template.text ↔ name ∈ template.names := by
  induction template with
  | nil => simp [text, names, placeholder]
  | cons part rest ih =>
    have htext : text (part :: rest) = part.text ++ text rest := rfl
    rw [htext]
    cases part with
    | chunk chunk unopened =>
      rw [Part.text, placeholder_infix_unopened_append_iff unopened, ih]
      rfl
    | hole other free =>
      have hnames : names (.hole other free :: rest) = other :: names rest := rfl
      rw [Part.text, placeholder_infix_placeholder_append_iff hname free, ih, hnames,
        List.mem_cons]

end Template

/-- The binding of a name to a value that has no hole. -/
def Binding.ofUnopened (key value : Text) (free : BraceFree key) (unopened : '\x7b' ∉ value) :
    Binding :=
  ⟨key, free, [.chunk value unopened]⟩

/-- A value without an opening brace is the text of its template. -/
theorem Binding.text_value_ofUnopened {key value : Text} (free : BraceFree key)
    (unopened : '\x7b' ∉ value) : (ofUnopened key value free unopened).value.text = value := by
  simp [ofUnopened, Template.text, Template.Part.text]

namespace Template

/-- Filling holes with a value without holes brings no new names. -/
theorem mem_names_of_mem_names_fill {key value name : Text} {free : BraceFree key}
    {unopened : '\x7b' ∉ value} {template : Template}
    (h : name ∈ (template.fill (.ofUnopened key value free unopened)).names) :
    name ∈ template.names := by
  obtain ⟨part, hpart, hname⟩ := List.mem_filterMap.1 h
  obtain ⟨origin, horigin, hfill⟩ := List.mem_flatMap.1 hpart
  refine List.mem_filterMap.2 ⟨origin, horigin, ?_⟩
  cases origin with
  | chunk chunk chunkUnopened =>
    obtain rfl : part = .chunk chunk chunkUnopened := by simpa [Part.fill] using hfill
    exact hname
  | hole other otherFree =>
    rw [Part.fill] at hfill
    split at hfill
    · obtain rfl : part = .chunk value unopened := by simpa [Binding.ofUnopened] using hfill
      simp [Part.name?] at hname
    · obtain rfl : part = .hole other otherFree := by simpa using hfill
      exact hname

/-- The value of a name without a hole does not matter to a template, as long as the other values
have no holes. -/
theorem substituteAll_text_map {name : Text} {bindings : List (Text × Text)}
    (hkeys : ∀ binding ∈ bindings, BraceFree binding.1)
    (hvalues : ∀ binding ∈ bindings, '\x7b' ∉ binding.2) {template : Template}
    (h : name ∉ template.names) (value : Text) :
    substituteAll template.text
        (bindings.map fun binding => if binding.1 = name then (binding.1, value) else binding) =
      substituteAll template.text bindings := by
  induction bindings generalizing template with
  | nil => rfl
  | cons binding later ih =>
    obtain ⟨hkey, hlaterKeys⟩ := List.forall_mem_cons.1 hkeys
    obtain ⟨hvalue, hlaterValues⟩ := List.forall_mem_cons.1 hvalues
    rw [List.map_cons, substituteAll_cons, substituteAll_cons]
    by_cases hname : binding.1 = name
    · -- neither value of the name is put anywhere
      have habsent : ¬ placeholder binding.1 <:+: template.text := by
        rw [placeholder_infix_text_iff hkey, hname]
        exact h
      rw [if_pos hname, substitute_of_absent habsent, substitute_of_absent habsent,
        ih hlaterKeys hlaterValues h]
    · have hfill : substitute template.text binding.1 binding.2 =
          (template.fill (.ofUnopened binding.1 binding.2 hkey hvalue)).text := by
        rw [← substitute_text, Binding.text_value_ofUnopened]
        rfl
      rw [if_neg hname, hfill, ih hlaterKeys hlaterValues]
      exact fun hmem => h (mem_names_of_mem_names_fill hmem)

end Template

/-! ## A placeholder alone -/

/-- Substitution leaves a text without an opening brace as it is. -/
theorem substituteAll_of_unopened {text : Text} (h : '\x7b' ∉ text)
    (bindings : List (Text × Text)) : substituteAll text bindings = text := by
  induction bindings with
  | nil => rfl
  | cons binding later ih =>
    rw [substituteAll_cons, substitute_of_absent (not_placeholder_infix_of_unopened h _), ih]

/-- Both braces of a placeholder are at its ends, so that no other one fits into it, not even one
for a name with braces. -/
theorem placeholder_infix_placeholder_iff {name other : Text} (hother : BraceFree other) :
    placeholder name <:+: placeholder other ↔ name = other := by
  constructor
  · intro hinfix
    have hcons : placeholder other = '\x7b' :: (other ++ ['\x7d']) := rfl
    have hunopened : '\x7b' ∉ other ++ ['\x7d'] := by
      simpa using hother.1
    rw [hcons, List.infix_cons_iff] at hinfix
    obtain ⟨tail, htail⟩ :=
      hinfix.resolve_right (not_placeholder_infix_of_unopened hunopened name)
    have hcut : name ++ '\x7d' :: tail = other ++ ['\x7d'] := by
      simpa [placeholder] using htail
    rcases List.eq_nil_or_concat tail with rfl | ⟨front, last, rfl⟩
    · exact (List.append_singleton_inj.1 hcut).1
    · -- then a closing brace would stand inside the other name
      exfalso
      apply hother.2
      rw [List.concat_eq_append, ← List.cons_append, ← List.append_assoc] at hcut
      rw [← (List.append_singleton_inj.1 hcut).1]
      simp
  · rintro rfl
    exact List.infix_refl _

/-- A placeholder stands for the first value of its name, if that has no opening brace. -/
theorem substituteAll_placeholder {name value : Text} (hname : BraceFree name)
    (hvalue : '\x7b' ∉ value) {bindings : List (Text × Text)}
    (h : NameMap.find? bindings name = some value) :
    substituteAll (placeholder name) bindings = value := by
  induction bindings with
  | nil => simp [NameMap.find?_nil] at h
  | cons binding later ih =>
    rw [NameMap.find?_cons] at h
    rw [substituteAll_cons]
    split at h
    · next hkey =>
      obtain rfl : binding.2 = value := Option.some.inj h
      have hplaceholder := substitute_placeholder_append name [] binding.2
      rw [substitute_nil, List.append_nil, List.append_nil] at hplaceholder
      rw [hkey, hplaceholder, substituteAll_of_unopened hvalue]
    · next hkey =>
      have habsent : ¬ placeholder binding.1 <:+: placeholder name := by
        rwa [placeholder_infix_placeholder_iff hname]
      rw [substitute_of_absent habsent, ih h]

end TypedVars
