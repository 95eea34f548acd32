import Mathlib.Data.List.Nodup
import TypedVars.Proofs.Substitution.Template

/-!
# Expansion of templates

Substituting bindings one after the other amounts to expanding forwards. A hole stands for the first
binding of its name that is still to come; the holes of that binding's value are expanded by the
bindings behind it only, so a reference to itself or to an earlier binding is kept as it is written.
When no value has a hole and no name is bound twice, the order of the bindings does not matter.
-/

set_option autoImplicit false

namespace TypedVars.Template

/-- The text of a part of which the holes stand for texts. -/
def Part.expandWith (meaning : Text → Text) : Part → Text
  | chunk text _ => text
  | hole name _ => meaning name

/-- The text that a name stands for, when the bindings are those still to come. -/
def expandName : List Binding → Text → Text
  | [], name => placeholder name
  | binding :: later, name =>
    if name = binding.key then binding.value.flatMap (Part.expandWith (expandName later))
    else expandName later name

/-- The text of a template expanded by bindings, of which the first comes first. -/
def expand (bindings : List Binding) (template : Template) : Text :=
  template.flatMap (Part.expandWith (expandName bindings))

/-- Without bindings a template expands to its text. -/
theorem expand_nil (template : Template) : expand [] template = template.text := by
  have hpart : Part.expandWith (expandName []) = Part.text := by
    funext part
    cases part <;> rfl
  rw [expand, hpart, text]

/-- A part expands by what its name expands to. -/
theorem expand_singleton (bindings : List Binding) (part : Part) :
    expand bindings [part] = part.expandWith (expandName bindings) := by
  rw [expand, List.flatMap_singleton]

/-- The first binding fills its holes, and its value is left to the bindings behind it. -/
theorem expand_cons (binding : Binding) (later : List Binding) (template : Template) :
    expand (binding :: later) template = expand later (template.fill binding) := by
  have hpart (part : Part) :
      part.expandWith (expandName (binding :: later)) = expand later (part.fill binding) := by
    cases part with
    | chunk chunk unopened =>
      rw [Part.fill, expand_singleton]
      rfl
    | hole name free =>
      rw [Part.fill, Part.expandWith, expandName]
      by_cases hname : name = binding.key
      · rw [if_pos hname, if_pos hname]
        rfl
      · rw [if_neg hname, if_neg hname, expand_singleton]
        rfl
  have hparts : Part.expandWith (expandName (binding :: later)) =
      fun part => expand later (part.fill binding) := funext hpart
  rw [expand, hparts, fill, expand, List.flatMap_assoc]
  rfl

end Template

/-- The key with the text of the value. -/
def Binding.pair (binding : Binding) : Text × Text := (binding.key, binding.value.text)

namespace Template

/-- Substituting in the text of a template is expanding the template. -/
theorem substituteAll_text (bindings : List Binding) (template : Template) :
    substituteAll template.text (bindings.map Binding.pair) = expand bindings template := by
  induction bindings generalizing template with
  | nil => exact (expand_nil template).symm
  | cons binding later ih =>
    rw [expand_cons, ← ih, ← substitute_text]
    rfl

/-! ## Values without holes -/

variable {bindings : List Binding}

/-- A text without an opening brace has no hole, so it is not expanded. -/
theorem expand_of_unopened {template : Template} (h : '\x7b' ∉ template.text)
    (bindings : List Binding) : expand bindings template = template.text := by
  apply List.flatMap_congr
  intro part hpart
  cases part with
  | chunk text unopened => rfl
  | hole name free =>
    exfalso
    apply h
    exact List.mem_flatMap.2 ⟨_, hpart, by simp [Part.text, placeholder]⟩

/-- A name without a binding stays a placeholder. -/
theorem expandName_of_not_mem {name : Text} (h : name ∉ bindings.map Binding.key) :
    expandName bindings name = placeholder name := by
  induction bindings with
  | nil => rfl
  | cons binding later ih =>
    obtain ⟨hne, hlater⟩ : name ≠ binding.key ∧ name ∉ later.map Binding.key := by
      rwa [List.map_cons, List.mem_cons, not_or] at h
    rw [expandName, if_neg hne, ih hlater]

/-- A bound name expands to its value when no value has a brace and no name two bindings. -/
theorem expandName_of_mem (hvalues : ∀ binding ∈ bindings, '\x7b' ∉ binding.value.text)
    (hnodup : (bindings.map Binding.key).Nodup) {binding : Binding} (h : binding ∈ bindings) :
    expandName bindings binding.key = binding.value.text := by
  induction bindings with
  | nil => simp at h
  | cons first later ih =>
    rw [List.map_cons, List.nodup_cons] at hnodup
    rw [expandName]
    rcases List.mem_cons.1 h with rfl | hlater
    · -- the value has no hole for the later bindings
      rw [if_pos rfl]
      exact expand_of_unopened (hvalues binding h) later
    · have hne : binding.key ≠ first.key := by
        intro heq
        apply hnodup.1
        rw [← heq]
        exact List.mem_map_of_mem hlater
      rw [if_neg hne]
      exact ih (fun other hother => hvalues other (List.mem_cons_of_mem _ hother)) hnodup.2 hlater

/-- Bindings of different names to values without braces may be given in any order. -/
theorem expand_perm {reordered : List Binding}
    (hvalues : ∀ binding ∈ bindings, '\x7b' ∉ binding.value.text)
    (hnodup : (bindings.map Binding.key).Nodup) (hperm : bindings.Perm reordered)
    (template : Template) : expand reordered template = expand bindings template := by
  have hkeys : (bindings.map Binding.key).Perm (reordered.map Binding.key) := hperm.map _
  have hname (name : Text) : expandName reordered name = expandName bindings name := by
    by_cases hmem : name ∈ bindings.map Binding.key
    · obtain ⟨binding, hbinding, rfl⟩ := List.mem_map.1 hmem
      have hreordered : ∀ other ∈ reordered, '\x7b' ∉ other.value.text := by
        intro other hother
        exact hvalues other (hperm.mem_iff.2 hother)
      rw [expandName_of_mem hvalues hnodup hbinding,
        expandName_of_mem hreordered (hkeys.nodup_iff.1 hnodup) (hperm.mem_iff.1 hbinding)]
    · rw [expandName_of_not_mem hmem, expandName_of_not_mem (fun h => hmem (hkeys.mem_iff.2 h))]
  rw [expand, expand, funext hname]

/-- Substituting templates in a template expands it forwards. Where values have no opening brace and
keys are distinct, the bindings may come in any order. -/
theorem substituteAll_expands (template : Template) (bindings : List Binding) :
    substituteAll template.text (bindings.map Binding.pair) = expand bindings template ∧
      ((∀ binding ∈ bindings, '\x7b' ∉ binding.value.text) →
        (bindings.map Binding.key).Nodup →
        ∀ reordered, bindings.Perm reordered →
          substituteAll template.text (reordered.map Binding.pair) =
            substituteAll template.text (bindings.map Binding.pair)) := by
  constructor
  · exact substituteAll_text bindings template
  · intro hvalues hnodup reordered hperm
    rw [substituteAll_text, substituteAll_text, expand_perm hvalues hnodup hperm]

/-- A later binding fills the holes of an earlier value, and the hole that this brings for the
earlier name is kept. Two values without holes are substituted in either order. -/
theorem substituteAll_expands_two_names :
    let template : Template := [.hole ['a'] (by decide), .hole ['b'] (by decide)]
    let forward : Binding := ⟨['a'], by decide, [.chunk ['1'] (by decide), .hole ['b'] (by decide)]⟩
    let backward : Binding := ⟨['b'], by decide, [.hole ['a'] (by decide)]⟩
    let one : Binding := ⟨['a'], by decide, [.chunk ['\x7d', '1'] (by decide)]⟩
    let two : Binding := ⟨['b'], by decide, [.chunk ['2'] (by decide)]⟩
    substituteAll template.text ([forward, backward].map Binding.pair) =
        '1' :: placeholder ['a'] ++ placeholder ['a'] ∧
      substituteAll template.text ([two, one].map Binding.pair) =
        substituteAll template.text ([one, two].map Binding.pair) := by
  intro template forward backward one two
  have hforward := (substituteAll_expands template [forward, backward]).1
  have hreordered := (substituteAll_expands template [one, two]).2 (by decide) (by decide)
  exact ⟨hforward, hreordered [two, one] (List.Perm.swap two one [])⟩

end Template

end TypedVars
