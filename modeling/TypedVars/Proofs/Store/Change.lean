import TypedVars.Proofs.Resolution.Agreement
import TypedVars.Proofs.Store.Run
import TypedVars.Proofs.Substitution.Absence

/-!
# Changes of variables

The value that a change stores depends on the current values of the names that its text has
placeholders for. Changes of two variables of which neither text has a placeholder for the other
variable therefore commute, and a variable that is changed to its own placeholder keeps its value.
-/

set_option autoImplicit false

namespace TypedVars.Store

/-! ## Stores by their entries -/

/-- Stores with the same entries are equal. -/
theorem eq_of_entries_eq {first second : Store} (h : first.slots.entries = second.slots.entries) :
    first = second := by
  obtain ⟨⟨entries, _⟩⟩ := first
  obtain ⟨⟨other, _⟩⟩ := second
  obtain rfl : entries = other := h
  rfl

/-- Setting a value gives the name another value in the list of bindings. -/
theorem SetsValue.bindings_eq {name value : Text} {before after : Store}
    (h : SetsValue name value before after) :
    after.bindings = before.bindings.map fun binding =>
      if binding.1 = name then (binding.1, value) else binding := by
  unfold bindings
  rw [h.entries_eq, List.map_map, List.map_map]
  apply List.map_congr_left
  intro entry _
  by_cases hname : entry.1 = name
  · simp [hname]
  · simp [hname]

/-- Values of two names may be set in either order. -/
theorem SetsValue.comm {first second firstValue secondValue : Text} (hne : first ≠ second)
    {start afterFirst afterSecond both reordered : Store}
    (hfirst : SetsValue first firstValue start afterFirst)
    (hboth : SetsValue second secondValue afterFirst both)
    (hsecond : SetsValue second secondValue start afterSecond)
    (hreordered : SetsValue first firstValue afterSecond reordered) : reordered = both := by
  apply eq_of_entries_eq
  rw [hboth.entries_eq, hfirst.entries_eq, hreordered.entries_eq, hsecond.entries_eq, List.map_map,
    List.map_map]
  apply List.map_congr_left
  intro entry _
  by_cases hentryFirst : entry.1 = first
  · simp [hentryFirst, hne]
  · by_cases hentrySecond : entry.1 = second
    · simp [hentrySecond, hne.symm]
    · simp [hentryFirst, hentrySecond]

/-- Setting a value a second time changes nothing. -/
theorem SetsValue.idem {name value : Text} {start changed again : Store}
    (hchanged : SetsValue name value start changed) (hagain : SetsValue name value changed again) :
    again = changed := by
  apply eq_of_entries_eq
  rw [hagain.entries_eq, hchanged.entries_eq, List.map_map]
  apply List.map_congr_left
  intro entry _
  by_cases hname : entry.1 = name
  · simp [hname]
  · simp [hname]

/-- A name is bound to the value that it has in the store. -/
theorem find?_bindings (store : Store) (name : Text) :
    NameMap.find? store.bindings name = store.get? name := by
  unfold bindings get? find? NameMap.get?
  induction store.slots.entries with
  | nil => rfl
  | cons entry rest ih =>
    rw [List.map_cons, NameMap.find?_cons, NameMap.find?_cons, ih]
    by_cases hname : entry.1 = name
    · simp [hname]
    · simp [hname]

/-! ## One change -/

/-- The value that a successful change answers is resolved for the type of the name, and set. -/
theorem set_of_change {store changed : Store} {name raw value : Text}
    (h : store.change name raw = .ok (changed, value)) :
    ∃ type, store.type? name = some type ∧
      value = type.resolve (substituteAll raw store.bindings) ∧
      store.set name value = .ok changed := by
  cases htype : store.type? name with
  | none =>
    unfold change at h
    rw [htype] at h
    simp at h
  | some type =>
    obtain ⟨_, hset, hchange⟩ := change_of_type? htype raw
    rw [hchange] at h
    obtain ⟨rfl, rfl⟩ := Prod.mk.inj (Except.ok.inj h)
    exact ⟨type, rfl, rfl, hset⟩

/-! ## Two changes -/

/-- A store of which no name has a brace and no value an opening brace. -/
structure Plain (store : Store) : Prop where
  names : ∀ binding ∈ store.bindings, BraceFree binding.1
  values : ∀ binding ∈ store.bindings, '\x7b' ∉ binding.2

/-- A change stores the same value when a name that its text has no placeholder for is set before,
to any value. -/
theorem change_of_set {store changed : Store} (hplain : store.Plain) {other otherValue : Text}
    (hset : store.set other otherValue = .ok changed) {name : Text} {type : TargetType}
    (htype : store.type? name = some type) {raw : Template} (hraw : other ∉ raw.names) :
    ∃ both, changed.set name (type.resolve (substituteAll raw.text store.bindings)) = .ok both ∧
      changed.change name raw.text =
        .ok (both, type.resolve (substituteAll raw.text store.bindings)) := by
  have hfilled : substituteAll raw.text changed.bindings =
      substituteAll raw.text store.bindings := by
    rw [(setsValue_of_set hset).bindings_eq]
    exact Template.substituteAll_text_map hplain.names hplain.values hraw otherValue
  have htypeChanged : changed.type? name = some type := by
    rw [type?_of_set hset, htype]
  have hchange := change_of_type? htypeChanged raw.text
  rwa [hfilled] at hchange

/-- Changes of two declared names, neither of which the text for the other one has a placeholder
for, lead to the same store and answer the same values in either order. -/
theorem change_comm {store : Store} (hplain : store.Plain) {first second : Text}
    (hne : first ≠ second) (hfirst : (store.type? first).isSome = true)
    (hsecond : (store.type? second).isSome = true) {firstRaw secondRaw : Template}
    (hfirstRaw : second ∉ firstRaw.names) (hsecondRaw : first ∉ secondRaw.names) :
    ∃ afterFirst afterSecond both firstValue secondValue,
      store.change first firstRaw.text = .ok (afterFirst, firstValue) ∧
        afterFirst.change second secondRaw.text = .ok (both, secondValue) ∧
        store.change second secondRaw.text = .ok (afterSecond, secondValue) ∧
        afterSecond.change first firstRaw.text = .ok (both, firstValue) := by
  obtain ⟨firstType, hfirstType⟩ := Option.isSome_iff_exists.1 hfirst
  obtain ⟨secondType, hsecondType⟩ := Option.isSome_iff_exists.1 hsecond
  obtain ⟨afterFirst, hset, hchange⟩ := change_of_type? hfirstType firstRaw.text
  obtain ⟨afterSecond, hsetSecond, hchangeSecond⟩ := change_of_type? hsecondType secondRaw.text
  obtain ⟨both, hsetBoth, hchangeBoth⟩ := change_of_set hplain hset hsecondType hsecondRaw
  obtain ⟨reordered, hsetReordered, hchangeReordered⟩ :=
    change_of_set hplain hsetSecond hfirstType hfirstRaw
  -- each value is the one that the change answers at the start, so only the order differs
  obtain rfl : reordered = both :=
    (setsValue_of_set hset).comm hne (setsValue_of_set hsetBoth) (setsValue_of_set hsetSecond)
      (setsValue_of_set hsetReordered)
  exact ⟨afterFirst, afterSecond, reordered, _, _, hchange, hchangeBoth, hchangeSecond,
    hchangeReordered⟩

/-- A sum with the variable itself, and a text with a placeholder that stands for nothing. -/
theorem change_comm_sum :
    let store := ((empty.declare ['a'] .int ['1']).declare ['b'] .string ['\x7d']).declare ['c']
      .double ['2']
    let sum : Template :=
      [.hole ['a'] (by decide), .chunk [' ', '+', ' '] (by decide), .hole ['c'] (by decide)]
    let unknown : Template := [.hole ['m'] (by decide), .hole ['b'] (by decide)]
    ∃ afterFirst afterSecond both,
      store.change ['a'] sum.text = .ok (afterFirst, ['3']) ∧
        afterFirst.change ['b'] unknown.text = .ok (both, placeholder ['m'] ++ ['\x7d']) ∧
        store.change ['b'] unknown.text = .ok (afterSecond, placeholder ['m'] ++ ['\x7d']) ∧
        afterSecond.change ['a'] sum.text = .ok (both, ['3']) := by
  intro store sum unknown
  have hplain : store.Plain := ⟨by decide, by decide⟩
  have hsum : (store.change ['a'] sum.text).toOption.map Prod.snd = some ['3'] := by
    decide +kernel
  have hunknown : (store.change ['b'] unknown.text).toOption.map Prod.snd =
      some (placeholder ['m'] ++ ['\x7d']) := by decide +kernel
  have hne : ['a'] ≠ ['b'] := by decide
  have hsumRaw : ['b'] ∉ sum.names := by decide
  have hunknownRaw : ['a'] ∉ unknown.names := by decide
  obtain ⟨afterFirst, afterSecond, both, firstValue, secondValue, hfirst, hboth, hsecond,
    hreordered⟩ := change_comm hplain hne rfl rfl hsumRaw hunknownRaw
  rw [hfirst] at hsum
  rw [hsecond] at hunknown
  obtain rfl : firstValue = ['3'] := Option.some.inj hsum
  obtain rfl : secondValue = placeholder ['m'] ++ ['\x7d'] := Option.some.inj hunknown
  exact ⟨afterFirst, afterSecond, both, hfirst, hboth, hsecond, hreordered⟩

/-! ## A change to its own placeholder -/

/-- A variable that has been changed to a value without an opening brace keeps this value, and the
store is kept, when it is changed to its own placeholder. The other names may have braces. -/
theorem change_placeholder_self {store changed : Store} {name raw value : Text}
    (hname : BraceFree name) (h : store.change name raw = .ok (changed, value))
    (hvalue : '\x7b' ∉ value) :
    changed.change name (placeholder name) = .ok (changed, value) := by
  obtain ⟨type, htype, hresolved, hset⟩ := set_of_change h
  have hsets := setsValue_of_set hset
  -- the placeholder is filled with the value, which the type has resolved once already
  have hfilled : substituteAll (placeholder name) changed.bindings = value := by
    apply substituteAll_placeholder hname hvalue
    rw [find?_bindings, hsets.get?_eq]
  have hkept : type.resolve value = value := by
    rw [hresolved, type.resolve_idem]
  have htypeChanged : changed.type? name = some type := by
    rw [type?_of_set hset, htype]
  obtain ⟨again, hsetAgain, hchangeAgain⟩ := change_of_type? htypeChanged (placeholder name)
  rw [hfilled, hkept] at hsetAgain hchangeAgain
  rw [hchangeAgain, hsets.idem (setsValue_of_set hsetAgain)]

/-- A halved variable among names and values with braces. -/
theorem change_placeholder_self_half :
    let store := ((empty.declare ['n'] .long ['7']).declare ['N', '\x7b'] .string
      (placeholder ['n'])).declare (placeholder ['n']) .int ['\x7b', '3']
    ∃ changed, store.change ['n'] (placeholder ['n'] ++ ['/', '2']) = .ok (changed, ['3']) ∧
      changed.change ['n'] (placeholder ['n']) = .ok (changed, ['3']) := by
  intro store
  have hvalue : (store.change ['n'] (placeholder ['n'] ++ ['/', '2'])).toOption.map Prod.snd =
      some ['3'] := by decide +kernel
  cases hchange : store.change ['n'] (placeholder ['n'] ++ ['/', '2']) with
  | error unknown =>
    rw [hchange] at hvalue
    simp [Except.toOption] at hvalue
  | ok answer =>
    obtain ⟨changed, value⟩ := answer
    rw [hchange] at hvalue
    obtain rfl : value = ['3'] := Option.some.inj hvalue
    exact ⟨changed, rfl, change_placeholder_self (by decide) hchange (by decide)⟩

end TypedVars.Store
