import TypedVars.Proofs.Substitution.Absence

/-!
# Every occurrence is replaced

A placeholder for a name without an opening brace is replaced wherever it stands. Its own opening
brace is the only one that it has, so an occurrence that begins in front of it ends in front of it,
and what stands on its two sides is substituted in as if it stood alone. Braces without a
counterpart, parts of placeholders and braces in the value make no difference.
-/

set_option autoImplicit false

namespace TypedVars

section

variable {name : Text} (hname : '\x7b' ∉ name)

include hname

/-- A placeholder does not reach from the text in front of another one into it. -/
theorem placeholder_prefix_of_prefix_append {front behind : Text} (hne : front ≠ [])
    (h : placeholder name <+: front ++ (placeholder name ++ behind)) :
    placeholder name <+: front := by
  obtain ⟨tail, htail⟩ := h
  rcases List.append_eq_append_iff.1 htail with ⟨left, rfl, -⟩ | ⟨reached, hsplit, hreached⟩
  · exact List.prefix_append ..
  cases reached with
  | nil =>
    rw [List.append_nil] at hsplit
    exact hsplit ▸ List.prefix_refl _
  | cons c reached =>
    -- the part that reaches into the other one starts with an opening brace
    exfalso
    obtain rfl : '\x7b' = c := (List.cons.inj hreached).1
    obtain ⟨first, others, rfl⟩ := List.exists_cons_of_ne_nil hne
    have hinside : name ++ ['\x7d'] = others ++ '\x7b' :: reached := (List.cons.inj hsplit).2
    have hmem : '\x7b' ∈ name ++ ['\x7d'] := by
      rw [hinside]
      simp
    simp [hname] at hmem

/-- A text is substituted in front of a placeholder and behind it, and the value put in between. -/
theorem substitute_append_placeholder_append (front behind value : Text) :
    substitute (front ++ (placeholder name ++ behind)) name value =
      substitute front name value ++ (value ++ substitute behind name value) := by
  induction front using Text.replaceAll.induct (placeholder name) with
  | case1 => rw [List.nil_append, substitute_placeholder_append, substitute_nil, List.nil_append]
  | case2 c rest hfront ih =>
    -- the text in front starts with a placeholder, which is replaced in both texts
    have hlength : (placeholder name).length - 1 + 1 = (placeholder name).length := by
      simp [placeholder]
    have hcut := List.prefix_iff_eq_append.1 (List.isPrefixOf_iff_prefix.1 hfront)
    rw [← hlength, List.drop_succ_cons] at hcut
    rw [← hcut, List.append_assoc, substitute_placeholder_append, ih, substitute_placeholder_append,
      List.append_assoc]
  | case3 c rest hfront ih =>
    rw [List.isPrefixOf_iff_prefix] at hfront
    have hwhole : ¬ placeholder name <+: c :: (rest ++ (placeholder name ++ behind)) := fun h =>
      hfront (placeholder_prefix_of_prefix_append hname (List.cons_ne_nil c rest) h)
    rw [List.cons_append, substitute_cons_of_not_prefix hwhole, ih,
      substitute_cons_of_not_prefix hfront, List.cons_append]

end

/-- A placeholder between any two texts is replaced by the value, and the texts are substituted in
by themselves. A text in which it does not occur is kept. -/
theorem substitute_every_occurrence (name value : Text) :
    ('\x7b' ∉ name → ∀ front behind,
      substitute (front ++ placeholder name ++ behind) name value =
        substitute front name value ++ value ++ substitute behind name value) ∧
      ∀ text, ¬ placeholder name <:+: text → substitute text name value = text := by
  constructor
  · intro hname front behind
    rw [List.append_assoc, substitute_append_placeholder_append hname, List.append_assoc]
  · intro text habsent
    exact substitute_of_absent habsent value

/-- Parts of placeholders on both sides of one, and a value that would make new ones of them. -/
theorem substitute_every_occurrence_nested :
    let name : Text := ['a']
    let front : Text := ['\x7b', '\x7b', 'a']
    let behind : Text := ['\x7d', '\x7b', 'a']
    let value : Text := '\x7d' :: placeholder name ++ ['\x7b', 'a']
    '\x7b' ∉ name ∧ ¬ placeholder name <:+: front ∧ ¬ placeholder name <:+: behind ∧
      substitute (front ++ placeholder name ++ behind) name value = front ++ value ++ behind := by
  intro name front behind value
  have hname : '\x7b' ∉ name := by decide
  have hfront : ¬ placeholder name <:+: front := by decide
  have hbehind : ¬ placeholder name <:+: behind := by decide
  obtain ⟨hbetween, habsent⟩ := substitute_every_occurrence name value
  refine ⟨hname, hfront, hbehind, ?_⟩
  rw [hbetween hname front behind, habsent front hfront, habsent behind hbehind]

end TypedVars
