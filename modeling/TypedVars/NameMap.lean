import TypedVars.Text.Basic

/-!
# Maps by name

A finite map from names is a list of entries in strictly increasing order of the names, by code
points. No name stands in it twice, and its order is the order in which it is written out.
-/

set_option autoImplicit false

namespace TypedVars

/-- A finite map from names to values, in the order of the names. -/
structure NameMap (α : Type) where
  /-- The entries in order. -/
  entries : List (Text × α)
  /-- The names increase. -/
  increasing : entries.Pairwise fun first second => first.1 < second.1

namespace NameMap

variable {α : Type}

/-- The map without entries. -/
def empty : NameMap α := ⟨[], List.Pairwise.nil⟩

/-- Looks a name up in a list of entries. -/
def find? (entries : List (Text × α)) (name : Text) : Option α :=
  (entries.find? fun entry => entry.1 == name).map Prod.snd

/-- The value of a name. -/
def get? (map : NameMap α) (name : Text) : Option α := find? map.entries name

/-- The number of names. -/
def size (map : NameMap α) : Nat := map.entries.length

/-- Puts an entry at its place among ordered entries, over an entry of the same name. -/
def insertEntry (name : Text) (value : α) : List (Text × α) → List (Text × α)
  | [] => [(name, value)]
  | entry :: rest =>
    if name < entry.1 then (name, value) :: entry :: rest
    else if entry.1 < name then entry :: insertEntry name value rest
    else (name, value) :: rest

/-- The names after an insertion are the new one and the old ones. -/
theorem mem_insertEntry {name : Text} {value : α} {entries : List (Text × α)} {entry : Text × α}
    (h : entry ∈ insertEntry name value entries) : entry = (name, value) ∨ entry ∈ entries := by
  induction entries with
  | nil => simpa [insertEntry] using h
  | cons first rest ih =>
    rw [insertEntry] at h
    split at h
    · simpa using h
    · split at h
      · rcases List.mem_cons.1 h with rfl | h
        · exact Or.inr (List.mem_cons_self ..)
        · exact (ih h).imp id (List.mem_cons_of_mem _)
      · rcases List.mem_cons.1 h with rfl | h
        · exact Or.inl rfl
        · exact Or.inr (List.mem_cons_of_mem _ h)

/-- An insertion keeps the order. -/
theorem pairwise_insertEntry (name : Text) (value : α) {entries : List (Text × α)}
    (h : entries.Pairwise fun first second => first.1 < second.1) :
    (insertEntry name value entries).Pairwise fun first second => first.1 < second.1 := by
  induction entries with
  | nil => simp [insertEntry]
  | cons first rest ih =>
    obtain ⟨above, ordered⟩ := List.pairwise_cons.1 h
    rw [insertEntry]
    split
    · next below =>
      refine List.pairwise_cons.2 ⟨fun entry member => ?_, h⟩
      rcases List.mem_cons.1 member with rfl | member
      · exact below
      · exact List.lt_trans below (above _ member)
    · next notBelow =>
      split
      · next after =>
        refine List.pairwise_cons.2 ⟨fun entry member => ?_, ih ordered⟩
        rcases mem_insertEntry member with rfl | member
        · exact after
        · exact above _ member
      · next notAfter =>
        have same : first.1 = name := List.le_antisymm notBelow notAfter
        exact List.pairwise_cons.2 ⟨fun entry member => same ▸ above _ member, ordered⟩

/-- Sets the value of a name, whether or not it has one already. -/
def insert (map : NameMap α) (name : Text) (value : α) : NameMap α :=
  ⟨insertEntry name value map.entries, pairwise_insertEntry name value map.increasing⟩

/-- The map of a list of entries; a later entry replaces an earlier one of the same name. -/
def ofList (entries : List (Text × α)) : NameMap α :=
  entries.foldl (fun map entry => map.insert entry.1 entry.2) empty

end NameMap

end TypedVars
