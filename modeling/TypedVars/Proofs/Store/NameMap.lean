import TypedVars.NameMap
import TypedVars.Proofs.Text.Encoding

/-!
# Look-ups in maps by name

A map is known by its look-ups: an insertion decides the one of its own name and no other. Inserting
a name that has a value already changes that value in its place and nothing else.
-/

set_option autoImplicit false

namespace TypedVars

/-- A text is not below itself. -/
theorem Text.ne_of_lt {left right : Text} (h : left < right) : left ≠ right := by
  rintro rfl
  exact List.lt_irrefl _ h

namespace NameMap

variable {α : Type}

/-- Nothing is found in no entries. -/
theorem find?_nil (name : Text) : find? ([] : List (Text × α)) name = none := rfl

/-- The first entry is found by its name, and other names behind it. -/
theorem find?_cons (entry : Text × α) (rest : List (Text × α)) (name : Text) :
    find? (entry :: rest) name = if entry.1 = name then some entry.2 else find? rest name := by
  unfold find?
  rw [List.find?_cons]
  by_cases h : entry.1 = name
  · rw [beq_iff_eq.2 h, if_pos h, Option.map_some]
  · rw [beq_eq_false_iff_ne.2 h, if_neg h]

/-- What is found is an entry. -/
theorem mem_of_find? {entries : List (Text × α)} {name : Text} {value : α}
    (h : find? entries name = some value) : (name, value) ∈ entries := by
  obtain ⟨entry, hentry, rfl⟩ := Option.map_eq_some_iff.1 h
  obtain rfl : entry.1 = name := by simpa using List.find?_some hentry
  exact List.mem_of_find?_eq_some hentry

/-- In a map a name stands only once, so its entry is the one that is found. -/
theorem find?_of_mem {entries : List (Text × α)} {entry : Text × α}
    (hordered : entries.Pairwise fun first second => first.1 < second.1)
    (h : entry ∈ entries) : find? entries entry.1 = some entry.2 := by
  induction entries with
  | nil => simp at h
  | cons first rest ih =>
    obtain ⟨habove, hrest⟩ := List.pairwise_cons.1 hordered
    rw [find?_cons]
    rcases List.mem_cons.1 h with rfl | hmem
    · rw [if_pos rfl]
    · rw [if_neg (Text.ne_of_lt (habove entry hmem)), ih hrest hmem]

/-- After an insertion the name is found with its new value, and others as before. -/
theorem find?_insertEntry (name : Text) (value : α) (entries : List (Text × α)) (other : Text) :
    find? (insertEntry name value entries) other =
      if other = name then some value else find? entries other := by
  have hnew (rest : List (Text × α)) :
      find? ((name, value) :: rest) other =
        if other = name then some value else find? rest other := by
    rw [find?_cons]
    by_cases h : other = name
    · rw [if_pos h, if_pos h.symm]
    · rw [if_neg h, if_neg (Ne.symm h)]
  induction entries with
  | nil => exact hnew []
  | cons entry rest ih =>
    rw [insertEntry]
    split
    · exact hnew _
    · next notBelow =>
      split
      · next after =>
        rw [find?_cons, find?_cons, ih]
        by_cases h : other = name
        · rw [h, if_neg (Text.ne_of_lt after), if_pos rfl, if_pos rfl]
        · rw [if_neg h, if_neg h]
      · next notAfter =>
        -- neither name is below the other
        have hsame : entry.1 = name := List.le_antisymm notBelow notAfter
        rw [hnew, find?_cons, hsame]
        by_cases h : other = name
        · rw [if_pos h, if_pos h]
        · rw [if_neg h, if_neg h, if_neg (Ne.symm h)]

/-- After an insertion the name has its new value, and others are as before. -/
theorem get?_insert (map : NameMap α) (name : Text) (value : α) (other : Text) :
    (map.insert name value).get? other = if other = name then some value else map.get? other :=
  find?_insertEntry name value map.entries other

/-- A name that has a value keeps its place when it is given another. -/
theorem insertEntry_of_find? {name : Text} {old : α} {entries : List (Text × α)} (value : α)
    (hordered : entries.Pairwise fun first second => first.1 < second.1)
    (hold : find? entries name = some old) :
    insertEntry name value entries =
      entries.map fun entry => if entry.1 = name then (entry.1, value) else entry := by
  induction entries with
  | nil => simp [find?_nil] at hold
  | cons entry rest ih =>
    obtain ⟨habove, hrest⟩ := List.pairwise_cons.1 hordered
    rw [find?_cons] at hold
    rw [List.map_cons, insertEntry]
    by_cases hname : entry.1 = name
    · have hkept : ∀ later ∈ rest,
          (if later.1 = name then (later.1, value) else later) = later := by
        intro later hlater
        have hlt := habove later hlater
        rw [hname] at hlt
        rw [if_neg (Text.ne_of_lt hlt).symm]
      rw [if_pos hname, List.map_congr_left hkept, List.map_id', hname,
        if_neg (List.lt_irrefl name), if_neg (List.lt_irrefl name)]
    · rw [if_neg hname] at hold
      have hlt : entry.1 < name := habove _ (mem_of_find? hold)
      rw [if_neg hname, if_neg (List.lt_asymm hlt), if_pos hlt, ih hrest hold]

/-- A name is found in the first entries, or else in the second ones. -/
theorem find?_append (left right : List (Text × α)) (name : Text) :
    find? (left ++ right) name = (find? left name).or (find? right name) := by
  unfold find?
  rw [List.find?_append, Option.map_or]

/-- A name is not found when no entry has it. -/
theorem find?_eq_none_iff (entries : List (Text × α)) (name : Text) :
    find? entries name = none ↔ name ∉ entries.map Prod.fst := by
  unfold find?
  rw [Option.map_eq_none_iff, List.find?_eq_none, List.mem_map]
  constructor
  · rintro h ⟨entry, hentry, hname⟩
    exact h entry hentry (beq_iff_eq.2 hname)
  · intro h entry hentry hname
    exact h ⟨entry, hentry, beq_iff_eq.1 hname⟩

/-- The value of the last entry of a name. -/
def lastOf (entries : List (Text × α)) (name : Text) : Option α := find? entries.reverse name

/-- In the map of a list the last entry of a name counts. -/
theorem get?_ofList (entries : List (Text × α)) (name : Text) :
    (ofList entries).get? name = lastOf entries name := by
  suffices h : ∀ map : NameMap α,
      (entries.foldl (fun map entry => map.insert entry.1 entry.2) map).get? name =
        (lastOf entries name).or (map.get? name) by
    rw [ofList, h]
    exact Option.or_none
  unfold lastOf
  induction entries with
  | nil => intro map; rfl
  | cons entry rest ih =>
    intro map
    rw [List.foldl_cons, ih, List.reverse_cons, find?_append, find?_cons, find?_nil, get?_insert,
      Option.or_assoc]
    congr 1
    by_cases h : name = entry.1
    · rw [if_pos h, if_pos h.symm]
      rfl
    · rw [if_neg h, if_neg (Ne.symm h)]
      rfl

/-- An entry with the greatest name is inserted at the end. -/
theorem insertEntry_of_forall_lt {name : Text} {value : α} {entries : List (Text × α)}
    (h : ∀ entry ∈ entries, entry.1 < name) :
    insertEntry name value entries = entries ++ [(name, value)] := by
  induction entries with
  | nil => rfl
  | cons first rest ih =>
    obtain ⟨hfirst, hrest⟩ := List.forall_mem_cons.1 h
    rw [insertEntry, if_neg (List.lt_asymm hfirst), if_pos hfirst, ih hrest, List.cons_append]

/-- A map is that of its own entries. -/
theorem ofList_entries (map : NameMap α) : ofList map.entries = map := by
  suffices h : ∀ (rest : List (Text × α)) (done : NameMap α),
      (done.entries ++ rest).Pairwise (fun first second => first.1 < second.1) →
      (rest.foldl (fun map entry => map.insert entry.1 entry.2) done).entries =
        done.entries ++ rest by
    have hentries : (ofList map.entries).entries = map.entries := h map.entries empty map.increasing
    cases hmap : ofList map.entries with
    | mk entries increasing =>
      rw [hmap] at hentries
      cases map with
      | mk others _ =>
        obtain rfl : entries = others := hentries
        rfl
  intro rest
  induction rest with
  | nil => intro done _; exact (List.append_nil _).symm
  | cons entry rest ih =>
    intro done hordered
    -- what is done lies below the next entry, which therefore goes to the end
    have hbelow : ∀ other ∈ done.entries, other.1 < entry.1 := fun other hother =>
      (List.pairwise_append.1 hordered).2.2 other hother entry (List.mem_cons_self ..)
    have hinsert : (done.insert entry.1 entry.2).entries = done.entries ++ [entry] :=
      insertEntry_of_forall_lt hbelow
    have hsplit : done.entries ++ entry :: rest = done.entries ++ [entry] ++ rest := by simp
    rw [List.foldl_cons, ih _ (by rwa [hinsert, ← hsplit]), hinsert, hsplit]

/-- The names of a map are those that have a value. -/
theorem mem_names_iff (map : NameMap α) (name : Text) :
    name ∈ map.entries.map Prod.fst ↔ ∃ value, map.get? name = some value := by
  rw [← Option.isSome_iff_exists, Option.isSome_iff_ne_none, get?, ne_eq, find?_eq_none_iff,
    Classical.not_not]

/-- The map of a list has the names of the list. -/
theorem mem_names_ofList (entries : List (Text × α)) (name : Text) :
    name ∈ (ofList entries).entries.map Prod.fst ↔ name ∈ entries.map Prod.fst := by
  rw [mem_names_iff, get?_ofList, ← Option.isSome_iff_exists, Option.isSome_iff_ne_none, lastOf,
    ne_eq, find?_eq_none_iff, Classical.not_not, List.map_reverse, List.mem_reverse]

end NameMap

end TypedVars
