import Mathlib.Data.List.Basic
import TypedVars.Substitution

/-!
# Templates

A template consists of chunks of text without an opening brace and of holes, which are placeholders
for names without braces. Substituting in the text of a template finds the holes of one name and
nothing else: no replacement starts inside a chunk, inside another hole or across their borders. So
a substitution is a change of the parts, and when the value is the text of a template too, the
result is again the text of one.
-/

set_option autoImplicit false

namespace TypedVars

/-- A text without braces. -/
def BraceFree (text : Text) : Prop := '\x7b' ∉ text ∧ '\x7d' ∉ text

instance (text : Text) : Decidable (BraceFree text) := inferInstanceAs (Decidable (_ ∧ _))

/-! ## Substitution at the front of a text -/

/-- There is nothing to substitute in the empty text. -/
theorem substitute_nil (name value : Text) : substitute [] name value = [] := by
  rw [substitute, Text.replaceAll]

/-- A character is kept when no placeholder for the name begins at it. -/
theorem substitute_cons_of_not_prefix {name rest : Text} {c : Char}
    (h : ¬ placeholder name <+: c :: rest) (value : Text) :
    substitute (c :: rest) name value = c :: substitute rest name value := by
  rw [← List.isPrefixOf_iff_prefix] at h
  rw [substitute, Text.replaceAll, if_neg h]
  rfl

/-- What stands in front of the first opening brace is kept. -/
theorem substitute_append_of_unopened {front : Text} (h : '\x7b' ∉ front)
    (rest name value : Text) :
    substitute (front ++ rest) name value = front ++ substitute rest name value := by
  induction front with
  | nil => rfl
  | cons c front ih =>
    obtain ⟨hc, hfront⟩ : '\x7b' ≠ c ∧ '\x7b' ∉ front := by simpa using h
    have hnone : ¬ placeholder name <+: c :: (front ++ rest) := by
      rw [placeholder, List.cons_append, List.cons_prefix_cons]
      exact fun h => hc h.1
    rw [List.cons_append, substitute_cons_of_not_prefix hnone, ih hfront, List.cons_append]

/-- A placeholder for the name at the front is replaced, whatever stands behind it. -/
theorem substitute_placeholder_append (name rest value : Text) :
    substitute (placeholder name ++ rest) name value = value ++ substitute rest name value := by
  have hcons : placeholder name ++ rest = '\x7b' :: (name ++ '\x7d' :: rest) := by
    simp [placeholder]
  have hprefix : (placeholder name).isPrefixOf (placeholder name ++ rest) = true :=
    List.isPrefixOf_iff_prefix.2 (List.prefix_append ..)
  have hdrop : (name ++ '\x7d' :: rest).drop ((placeholder name).length - 1) = rest := by
    simp [placeholder]
  rw [hcons] at hprefix ⊢
  rw [substitute, Text.replaceAll, if_pos hprefix, hdrop]
  rfl

/-- The closing brace ends a name without braces, so a placeholder is found where it stands only. -/
theorem placeholder_prefix_append_iff {name other : Text} (hname : BraceFree name)
    (hother : BraceFree other) (rest : Text) :
    placeholder name <+: placeholder other ++ rest ↔ name = other := by
  constructor
  · rintro ⟨tail, htail⟩
    have hcut : name ++ '\x7d' :: tail = other ++ '\x7d' :: rest := by
      simpa [placeholder] using htail
    have hwhile {front : Text} (hfree : BraceFree front) (behind : Text) :
        (front ++ '\x7d' :: behind).takeWhile (· ≠ '\x7d') = front := by
      rw [List.takeWhile_append_of_pos]
      · simp
      · intro c hc
        have hne : c ≠ '\x7d' := fun h => hfree.2 (h ▸ hc)
        simpa using hne
    rw [← hwhile hname tail, hcut, hwhile hother rest]
  · rintro rfl
    exact List.prefix_append ..

/-- A placeholder for another name is kept. -/
theorem substitute_placeholder_append_of_ne {name other : Text} (hname : BraceFree name)
    (hother : BraceFree other) (hne : other ≠ name) (rest value : Text) :
    substitute (placeholder other ++ rest) name value =
      placeholder other ++ substitute rest name value := by
  have hcons : placeholder other ++ rest = '\x7b' :: ((other ++ ['\x7d']) ++ rest) := by
    simp [placeholder]
  have hnone : ¬ placeholder name <+: '\x7b' :: ((other ++ ['\x7d']) ++ rest) := by
    rw [← hcons, placeholder_prefix_append_iff hname hother]
    exact Ne.symm hne
  -- behind its opening brace a placeholder has no other one
  have hunopened : '\x7b' ∉ other ++ ['\x7d'] := by
    simpa using hother.1
  rw [hcons, substitute_cons_of_not_prefix hnone, substitute_append_of_unopened hunopened]
  simp [placeholder]

/-! ## Parts -/

/-- A part of a template. -/
inductive Template.Part where
  | chunk (text : Text) (unopened : '\x7b' ∉ text)
  | hole (name : Text) (free : BraceFree name)

/-- A text given by its parts, in their order. -/
abbrev Template := List Template.Part

/-- The placeholders of a name stand for a value, which is a template. -/
structure Binding where
  key : Text
  free : BraceFree key
  value : Template

namespace Template

def Part.text : Part → Text
  | chunk text _ => text
  | hole name _ => placeholder name

def text (template : Template) : Text := template.flatMap Part.text

/-- Puts the parts of a bound value in the place of a hole. -/
def Part.fill (binding : Binding) : Part → Template
  | chunk text unopened => [chunk text unopened]
  | hole name free => if name = binding.key then binding.value else [hole name free]

def fill (binding : Binding) (template : Template) : Template :=
  template.flatMap (Part.fill binding)

/-- Templates one after the other have the texts of both. -/
theorem text_append (left right : Template) : text (left ++ right) = left.text ++ right.text :=
  List.flatMap_append

/-- Substituting a bound value in the text of a template fills the holes of the key. -/
theorem substitute_text (binding : Binding) (template : Template) :
    substitute template.text binding.key binding.value.text = (template.fill binding).text := by
  induction template with
  | nil => exact substitute_nil _ _
  | cons part rest ih =>
    have hfill : fill binding (part :: rest) = part.fill binding ++ fill binding rest := rfl
    have htext : text (part :: rest) = part.text ++ text rest := rfl
    rw [hfill, htext, text_append, ← ih]
    cases part with
    | chunk chunk unopened =>
      have hchunk : text (Part.fill binding (.chunk chunk unopened)) = chunk := by
        simp [Part.fill, text, Part.text]
      rw [Part.text, substitute_append_of_unopened unopened, hchunk]
    | hole name free =>
      rw [Part.text, Part.fill]
      by_cases hname : name = binding.key
      · rw [if_pos hname, hname, substitute_placeholder_append]
      · have hhole : text [.hole name free] = placeholder name := by
          simp [text, Part.text]
        rw [if_neg hname, substitute_placeholder_append_of_ne binding.free free hname, hhole]

end Template

end TypedVars
