import TypedVars.Yaml.Reading

/-!
# Runs of readings

A reading of a list reads its members in turn and adds up the aliases that they follow. So a
relation between what is read and what it is read as carries over from the members to the lists, and
a fault of a list is the fault of one of its members.
-/

set_option autoImplicit false

namespace TypedVars.Yaml

variable {α β γ δ : Type}

/-! ## Counting relations -/

/-- Lists related member by member, with the sum of the counts of the members. -/
inductive Counted (R : α → β → Nat → Prop) : List α → List β → Nat → Prop
  | nil : Counted R [] [] 0
  | cons {a : α} {b : β} {as : List α} {bs : List β} {count rest : Nat} (head : R a b count)
      (tail : Counted R as bs rest) : Counted R (a :: as) (b :: bs) (count + rest)

/-- Pairs related part by part, with the sum of the counts of the parts. -/
inductive Paired (R : α → β → Nat → Prop) (S : γ → δ → Nat → Prop) : α × γ → β × δ → Nat → Prop
  | mk {a : α} {b : β} {c : γ} {d : δ} {left right : Nat} (fst : R a b left) (snd : S c d right) :
      Paired R S (a, c) (b, d) (left + right)

/-- A related pair in front of related pairs. -/
theorem Counted.pair {R : α → β → Nat → Prop} {S : γ → δ → Nat → Prop} {a : α} {b : β} {c : γ}
    {d : δ} {left : List (α × γ)} {right : List (β × δ)} {m n rest : Nat} (fst : R a b m)
    (snd : S c d n) (tail : Counted (Paired R S) left right rest) :
    Counted (Paired R S) ((a, c) :: left) ((b, d) :: right) (m + n + rest) :=
  .cons (.mk fst snd) tail

/-- The members of the first list may be taken from others. -/
theorem Counted.map_left {R : β → γ → Nat → Prop} (f : α → β) {as : List α} {cs : List γ}
    {count : Nat} :
    Counted R (as.map f) cs count ↔ Counted (fun a => R (f a)) as cs count := by
  induction as generalizing cs count with
  | nil =>
    constructor <;> rintro ⟨⟩ <;> exact .nil
  | cons a as ih =>
    constructor
    · rintro (_ | ⟨head, tail⟩)
      exact .cons head (ih.1 tail)
    · rintro (_ | ⟨head, tail⟩)
      exact .cons head (ih.2 tail)

/-- A condition on what is read may be taken out of the relation of the members. -/
theorem Counted.and {R : α → β → Nat → Prop} {P : β → Prop} {as : List α} {bs : List β}
    {count : Nat} :
    Counted (fun a b n => R a b n ∧ P b) as bs count ↔
      Counted R as bs count ∧ ∀ b ∈ bs, P b := by
  constructor
  · intro h
    induction h with
    | nil => exact ⟨.nil, by simp⟩
    | cons head _ ih => exact ⟨.cons head.1 ih.1, List.forall_mem_cons.2 ⟨head.2, ih.2⟩⟩
  · rintro ⟨h, hall⟩
    induction h with
    | nil => exact .nil
    | cons head _ ih =>
      obtain ⟨hhead, htail⟩ := List.forall_mem_cons.1 hall
      exact .cons ⟨head, hhead⟩ (ih htail)

/-- Conditions on the parts of a pair may be taken out of their relations. -/
theorem Paired.and {R : α → β → Nat → Prop} {S : γ → δ → Nat → Prop} {P : β → Prop} {Q : δ → Prop} :
    Paired (fun a b n => R a b n ∧ P b) (fun c d n => S c d n ∧ Q d) =
      fun pair result count => Paired R S pair result count ∧ P result.1 ∧ Q result.2 := by
  funext pair result count
  apply propext
  constructor
  · rintro ⟨⟨hr, hp⟩, hs, hq⟩
    exact ⟨.mk hr hs, hp, hq⟩
  · rintro ⟨⟨hr, hs⟩, hp, hq⟩
    exact .mk ⟨hr, hp⟩ ⟨hs, hq⟩

/-! ## Successful runs -/

/-- Two readings in turn succeed when both do. -/
theorem run_bind_eq_ok_iff {x : Reading α} {next : α → Reading β} {start : Nat}
    {result : β × Nat} :
    (x >>= next).run start = .ok result ↔
      ∃ a mid, x.run start = .ok (a, mid) ∧ (next a).run mid = .ok result := by
  show (x.run start >>= fun read => (next read.1).run read.2) = .ok result ↔ _
  cases x.run start with
  | error fault => simp [bind, Except.bind]
  | ok read =>
    obtain ⟨a, mid⟩ := read
    constructor
    · intro h
      exact ⟨a, mid, rfl, h⟩
    · rintro ⟨a', mid', heq, h⟩
      obtain ⟨rfl, rfl⟩ := Prod.mk.inj (Except.ok.inj heq)
      exact h

/-- Reading nothing gives a result as it is. -/
theorem run_pure_eq_ok_iff {a b : α} {start later : Nat} :
    (pure a : Reading α).run start = .ok (b, later) ↔ a = b ∧ start = later := by
  show Except.ok (a, start) = .ok (b, later) ↔ _
  simp

/-- A fault is no success. -/
theorem run_throw_ne_ok {fault : ReadFault} {start : Nat} {result : α × Nat} :
    (throw fault : Reading α).run start ≠ .ok result := by
  show (Except.error fault : Except ReadFault (α × Nat)) ≠ .ok result
  simp

/-- The result of a reading is that of its run, without the count of aliases. -/
theorem run'_eq (reading : Reading α) (start : Nat) :
    reading.run' start = (reading.run start).map Prod.fst := rfl

/-- A reading finds what a relation relates, counts the aliases on the way, and keeps within the
limit. -/
def Reads (limit : Nat) (read : α → Reading β) (R : α → β → Nat → Prop) : Prop :=
  ∀ a b start later, start ≤ limit →
    ((read a).run start = .ok (b, later) ↔
      ∃ count, R a b count ∧ later = start + count ∧ later ≤ limit)

/-- A reading that finds what a relation relates, and what is read behind it. -/
theorem Reads.bind_iff {limit : Nat} {read : α → Reading β} {R : α → β → Nat → Prop}
    (h : Reads limit read R) {a : α} {next : β → Reading γ} {c : γ} {start later : Nat}
    (hstart : start ≤ limit) :
    (read a >>= next).run start = .ok (c, later) ↔
      ∃ b count, R a b count ∧ start + count ≤ limit ∧
        (next b).run (start + count) = .ok (c, later) := by
  rw [run_bind_eq_ok_iff]
  constructor
  · rintro ⟨b, mid, hb, hnext⟩
    obtain ⟨count, hcount, rfl, hmid⟩ := (h a b start mid hstart).1 hb
    exact ⟨b, count, hcount, hmid, hnext⟩
  · rintro ⟨b, count, hcount, hmid, hnext⟩
    exact ⟨b, _, (h a b start _ hstart).2 ⟨count, hcount, rfl, hmid⟩, hnext⟩

/-- The members of a list are read in turn. -/
theorem Reads.mapM {limit : Nat} {read : α → Reading β} {R : α → β → Nat → Prop}
    (h : Reads limit read R) : Reads limit (List.mapM read) (Counted R) := by
  intro as
  induction as with
  | nil =>
    intro bs start later hstart
    rw [List.mapM_nil, run_pure_eq_ok_iff]
    constructor
    · rintro ⟨rfl, rfl⟩
      exact ⟨0, .nil, rfl, hstart⟩
    · rintro ⟨count, hcounted, rfl, -⟩
      cases hcounted
      exact ⟨rfl, rfl⟩
  | cons a as ih =>
    intro bs start later hstart
    rw [List.mapM_cons, run_bind_eq_ok_iff]
    constructor
    · rintro ⟨b, mid, hb, hrest⟩
      obtain ⟨count, hcount, rfl, hmid⟩ := (h a b start mid hstart).1 hb
      obtain ⟨tail, stop, htail, hpure⟩ := run_bind_eq_ok_iff.1 hrest
      obtain ⟨rfl, rfl⟩ := run_pure_eq_ok_iff.1 hpure
      obtain ⟨rest, hcounted, rfl, hstop⟩ := (ih tail _ stop hmid).1 htail
      exact ⟨count + rest, .cons hcount hcounted, by omega, hstop⟩
    · rintro ⟨total, hcounted, rfl, hlimit⟩
      cases hcounted with
      | @cons _ b _ tail count rest hhead htail =>
        refine ⟨b, start + count, ?_, ?_⟩
        · exact (h a b start _ hstart).2 ⟨count, hhead, rfl, by omega⟩
        · refine run_bind_eq_ok_iff.2 ⟨tail, start + (count + rest), ?_, rfl⟩
          exact (ih tail _ _ (by omega)).2 ⟨rest, htail, by omega, hlimit⟩

/-- The members of a list are read in turn, each by a reading for its place. -/
theorem Reads.mapM_zipIdx {limit : Nat} {read : Nat → α → Reading β} {R : α → β → Nat → Prop}
    (h : ∀ i, Reads limit (read i) R) :
    Reads limit (fun as : List α => as.zipIdx.mapM fun a => read a.2 a.1) (Counted R) := by
  have hplaced : Reads limit (fun a : α × Nat => read a.2 a.1) fun a => R a.1 :=
    fun a => h a.2 a.1
  intro as bs start later hstart
  simp only [hplaced.mapM as.zipIdx bs start later hstart, ← Counted.map_left Prod.fst,
    List.zipIdx_map_fst]

/-- Two readings in turn, of which the second may depend on what the first has read from. -/
theorem Reads.pair {limit : Nat} {left : α → Reading β} {right : α → γ → Reading δ}
    {R : α → β → Nat → Prop} {S : γ → δ → Nat → Prop} (hleft : Reads limit left R)
    (hright : ∀ a, Reads limit (right a) S) :
    Reads limit (fun pair : α × γ => do
      let b ← left pair.1
      let d ← right pair.1 pair.2
      return (b, d)) (Paired R S) := by
  rintro ⟨a, c⟩ ⟨b, d⟩ start later hstart
  rw [run_bind_eq_ok_iff]
  constructor
  · rintro ⟨b', mid, hb, hrest⟩
    obtain ⟨d', stop, hd, hpure⟩ := run_bind_eq_ok_iff.1 hrest
    obtain ⟨heq, rfl⟩ := run_pure_eq_ok_iff.1 hpure
    obtain ⟨rfl, rfl⟩ := Prod.mk.inj heq
    obtain ⟨m, hm, rfl, hmid⟩ := (hleft a b' start mid hstart).1 hb
    obtain ⟨n, hn, rfl, hstop⟩ := (hright a c d' _ stop hmid).1 hd
    exact ⟨m + n, .mk hm hn, by omega, hstop⟩
  · rintro ⟨count, hpaired, rfl, hlimit⟩
    cases hpaired with
    | @mk _ _ _ _ m n hm hn =>
      refine ⟨b, start + m, (hleft a b start _ hstart).2 ⟨m, hm, rfl, by omega⟩, ?_⟩
      refine run_bind_eq_ok_iff.2 ⟨d, start + (m + n), ?_, rfl⟩
      exact (hright a c d _ _ (by omega)).2 ⟨n, hn, by omega, hlimit⟩

/-! ## Faulty runs -/

/-- Reading nothing has no fault. -/
theorem run_pure_ne_error {a : α} {start : Nat} {fault : ReadFault} :
    (pure a : Reading α).run start ≠ .error fault := by
  show (Except.ok (a, start) : Except ReadFault (α × Nat)) ≠ .error fault
  simp

/-- Two readings in turn have the fault of the first one, or else that of the second one. -/
theorem run_bind_eq_error_iff {x : Reading α} {next : α → Reading β} {start : Nat}
    {fault : ReadFault} :
    (x >>= next).run start = .error fault ↔
      x.run start = .error fault ∨
        ∃ a mid, x.run start = .ok (a, mid) ∧ (next a).run mid = .error fault := by
  show (x.run start >>= fun read => (next read.1).run read.2) = .error fault ↔ _
  cases x.run start with
  | error other => simp [bind, Except.bind]
  | ok read =>
    obtain ⟨a, mid⟩ := read
    constructor
    · intro h
      exact .inr ⟨a, mid, rfl, h⟩
    · rintro (h | ⟨a', mid', heq, h⟩)
      · simp at h
      · obtain ⟨rfl, rfl⟩ := Prod.mk.inj (Except.ok.inj heq)
        exact h

/-- A fault is one of a reading that finds what a relation relates, or of what is read behind it. -/
theorem Reads.bind_eq_error_iff {limit : Nat} {read : α → Reading β} {R : α → β → Nat → Prop}
    (h : Reads limit read R) {a : α} {next : β → Reading γ} {start : Nat} {fault : ReadFault}
    (hstart : start ≤ limit) :
    (read a >>= next).run start = .error fault ↔
      (read a).run start = .error fault ∨
        ∃ b count, R a b count ∧ start + count ≤ limit ∧
          (next b).run (start + count) = .error fault := by
  rw [run_bind_eq_error_iff]
  refine or_congr_right ?_
  constructor
  · rintro ⟨b, mid, hb, hnext⟩
    obtain ⟨count, hcount, rfl, hmid⟩ := (h a b start mid hstart).1 hb
    exact ⟨b, count, hcount, hmid, hnext⟩
  · rintro ⟨b, count, hcount, hmid, hnext⟩
    exact ⟨b, _, (h a b start _ hstart).2 ⟨count, hcount, rfl, hmid⟩, hnext⟩

/-- The fault of a list is the fault of a member, and all members in front of it have been read. -/
theorem Reads.exists_of_mapM_eq_error {limit : Nat} {read : α → Reading β} {R : α → β → Nat → Prop}
    (h : Reads limit read R) {as : List α} {start : Nat} {fault : ReadFault} (hstart : start ≤ limit)
    (hrun : (as.mapM read).run start = .error fault) :
    ∃ earlier a later bs count, as = earlier ++ a :: later ∧ Counted R earlier bs count ∧
      start + count ≤ limit ∧ (read a).run (start + count) = .error fault := by
  induction as generalizing start with
  | nil =>
    rw [List.mapM_nil] at hrun
    exact absurd hrun run_pure_ne_error
  | cons a as ih =>
    rw [List.mapM_cons, h.bind_eq_error_iff hstart] at hrun
    obtain hfirst | ⟨b, count, hcount, hmid, hrest⟩ := hrun
    · exact ⟨[], a, as, [], 0, rfl, .nil, hstart, hfirst⟩
    · obtain hlater | ⟨bs, stop, -, hpure⟩ := run_bind_eq_error_iff.1 hrest
      · obtain ⟨earlier, other, later, bs, rest, rfl, hread, hlimit, hother⟩ := ih hmid hlater
        rw [Nat.add_assoc] at hlimit hother
        exact ⟨a :: earlier, other, later, b :: bs, count + rest, rfl, .cons hcount hread, hlimit,
          hother⟩
      · exact absurd hpure run_pure_ne_error

/-- The same for members that are read each by a reading for its place. -/
theorem Reads.exists_of_mapM_zipIdx_eq_error {limit : Nat} {read : Nat → α → Reading β}
    {R : α → β → Nat → Prop} (h : ∀ i, Reads limit (read i) R) {as : List α} {start : Nat}
    {fault : ReadFault} (hstart : start ≤ limit)
    (hrun : (as.zipIdx.mapM fun a => read a.2 a.1).run start = .error fault) :
    ∃ earlier a later bs count, as = earlier ++ a :: later ∧ Counted R earlier bs count ∧
      start + count ≤ limit ∧ (read earlier.length a).run (start + count) = .error fault := by
  have hplaced : Reads limit (fun a : α × Nat => read a.2 a.1) fun a => R a.1 :=
    fun a => h a.2 a.1
  obtain ⟨earlier, ⟨a, i⟩, later, bs, count, hsplit, hread, hlimit, hfault⟩ :=
    hplaced.exists_of_mapM_eq_error hstart hrun
  have hitems : as = earlier.map Prod.fst ++ a :: later.map Prod.fst := by
    rw [← List.zipIdx_map_fst 0 as, hsplit, List.map_append, List.map_cons]
  -- the place of the member is the number of those in front of it, so the zipped places go away
  have hplace : i = earlier.length := by
    have hget : as.zipIdx[earlier.length]? = some (a, i) := by simp [hsplit]
    rw [List.getElem?_zipIdx, Option.map_eq_some_iff] at hget
    obtain ⟨_, -, hpair⟩ := hget
    rw [← (Prod.mk.inj hpair).2, Nat.zero_add]
  refine ⟨earlier.map Prod.fst, a, later.map Prod.fst, bs, count, hitems,
    (Counted.map_left Prod.fst).2 hread, hlimit, ?_⟩
  rw [List.length_map, ← hplace]
  exact hfault

end TypedVars.Yaml
