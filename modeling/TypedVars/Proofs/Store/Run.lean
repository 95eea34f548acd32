import Mathlib.Data.List.Induction
import TypedVars.Proofs.Store.NameMap
import TypedVars.Store.Step

/-!
# What a run of a store keeps

A step that succeeds is a new set of variables, a declaration or a new value of one variable; a step
that fails is nothing. So the history of a store tells which names it has and of which types they
are: those of the last declaration or load that covers them, unless all variables were dropped or
replaced behind it.
-/

set_option autoImplicit false

namespace TypedVars.Store

/-! ## Setting a value -/

/-- One store has a value for a name and is otherwise the same as the other: the same names in the
same order, of the same types, with the same other values. -/
structure SetsValue (name value : Text) (before after : Store) : Prop where
  entries_eq : after.slots.entries = before.slots.entries.map fun entry =>
    if entry.1 = name then (entry.1, ⟨entry.2.type, value⟩) else entry
  get?_eq : after.get? name = some value

/-- Setting a known name replaces its value and keeps its type. -/
theorem set_eq_ok_iff {store changed : Store} {name value : Text} :
    store.set name value = .ok changed ↔
      ∃ found, store.find? name = some found ∧
        changed = ⟨store.slots.insert name ⟨found.type, value⟩⟩ := by
  unfold set
  cases store.find? name with
  | none => simp
  | some found => simp [eq_comm]

/-- Setting a name sets its value and leaves all others. -/
theorem setsValue_of_set {store changed : Store} {name value : Text}
    (h : store.set name value = .ok changed) : SetsValue name value store changed := by
  obtain ⟨found, hfound, rfl⟩ := set_eq_ok_iff.1 h
  constructor
  · show NameMap.insertEntry name _ store.slots.entries = _
    rw [NameMap.insertEntry_of_find? _ store.slots.increasing hfound]
    apply List.map_congr_left
    intro entry hentry
    by_cases hname : entry.1 = name
    · -- an entry of that name is the one that is found
      have hsame : entry.2 = found := by
        have hentryFound := NameMap.find?_of_mem store.slots.increasing hentry
        rw [hname] at hentryFound
        exact Option.some.inj (hentryFound.symm.trans hfound)
      rw [if_pos hname, if_pos hname, hsame]
    · rw [if_neg hname, if_neg hname]
  · simp [get?, find?, NameMap.get?_insert]

/-- Setting fails for an unknown name only, and says which. -/
theorem set_eq_error_iff {store : Store} {name value : Text} {unknown : UnknownVariable} :
    store.set name value = .error unknown ↔ store.type? name = none ∧ unknown = ⟨name⟩ := by
  unfold set type?
  cases store.find? name with
  | none => simp [eq_comm]
  | some found => simp

/-- Setting a name keeps all types. -/
theorem type?_of_set {store changed : Store} {name value : Text}
    (h : store.set name value = .ok changed) (other : Text) :
    changed.type? other = store.type? other := by
  obtain ⟨found, hfound, rfl⟩ := set_eq_ok_iff.1 h
  unfold type? find?
  rw [NameMap.get?_insert]
  by_cases hother : other = name
  · rw [if_pos hother, hother, ← find?, hfound]
    rfl
  · rw [if_neg hother]

/-- A change of a declared name sets what its type resolves the filled text to. -/
theorem change_of_type? {store : Store} {name : Text} {type : TargetType}
    (h : store.type? name = some type) (raw : Text) :
    ∃ changed, store.set name (type.resolve (substituteAll raw store.bindings)) = .ok changed ∧
      store.change name raw = .ok (changed, type.resolve (substituteAll raw store.bindings)) := by
  obtain ⟨found, hfound, -⟩ := Option.map_eq_some_iff.1 h
  have hset : store.set name (type.resolve (substituteAll raw store.bindings)) = .ok _ :=
    set_eq_ok_iff.2 ⟨found, hfound, rfl⟩
  refine ⟨_, hset, ?_⟩
  unfold change
  rw [h]
  dsimp only
  rw [hset]
  rfl

/-- A change fails only where there is no type to resolve for, and else the value can be set. -/
theorem change_eq (store : Store) (name raw : Text) :
    (store.type? name = none ∧ store.change name raw = .error ⟨name⟩) ∨
      ∃ value changed, store.change name raw = .ok (changed, value) ∧
        store.set name value = .ok changed := by
  cases htype : store.type? name with
  | none =>
    left
    unfold change
    rw [htype]
    exact ⟨rfl, rfl⟩
  | some type =>
    obtain ⟨changed, hset, hchange⟩ := change_of_type? htype raw
    exact .inr ⟨_, changed, hchange, hset⟩

/-! ## Histories -/

/-- The type that a step gives to a name, if it is a declaration or a load that covers the name. -/
def Step.typeGiven? (step : Step) (name : Text) : Option TargetType :=
  match step with
  | .declare declared tag _ => if name = declared then TargetType.ofTag? tag else none
  | .load yaml =>
    match Schema.ofYaml yaml with
    | .ok schema => (schema.get? name).map Variable.type
    | .error _ => none
  | _ => none

/-- A step that leaves no earlier variable: it drops all of them or loads others. -/
def Step.startsOver : Step → Bool
  | .clear => true
  | .load yaml => (Schema.ofYaml yaml).isOk
  | _ => false

/-- In a history the last step that covers a name gives it a type, and no step behind it starts
over. -/
def LastGiven (steps : List Step) (name : Text) (type : TargetType) : Prop :=
  ∃ earlier step later, steps = earlier ++ step :: later ∧ step.typeGiven? name = some type ∧
    ∀ next ∈ later, next.typeGiven? name = none ∧ next.startsOver = false

/-- Before the first step no type is given. -/
theorem not_lastGiven_nil {name : Text} {type : TargetType} : ¬ LastGiven [] name type := by
  rintro ⟨earlier, step, later, hsteps, -, -⟩
  simp at hsteps

/-- The last step decides, or else the history before it does. -/
theorem lastGiven_append_singleton {steps : List Step} {step : Step} {name : Text}
    {type : TargetType} :
    LastGiven (steps ++ [step]) name type ↔
      step.typeGiven? name = some type ∨
        step.typeGiven? name = none ∧ step.startsOver = false ∧ LastGiven steps name type := by
  constructor
  · rintro ⟨earlier, giving, later, hsteps, hgiven, hlater⟩
    rcases List.eq_nil_or_concat later with rfl | ⟨front, last, rfl⟩
    · obtain ⟨-, rfl⟩ : steps = earlier ∧ step = giving := by simpa using hsteps
      exact .inl hgiven
    · obtain ⟨rfl, rfl⟩ : steps = earlier ++ giving :: front ∧ step = last := by
        apply List.append_singleton_inj.1
        rw [hsteps, List.concat_eq_append, List.append_assoc, List.cons_append]
      obtain ⟨hnone, hover⟩ := hlater step (by simp)
      refine .inr ⟨hnone, hover, earlier, giving, front, rfl, hgiven, ?_⟩
      intro next hnext
      exact hlater next (by simp [hnext])
  · rintro (hgiven | ⟨hnone, hover, earlier, giving, later, rfl, hgiven, hlater⟩)
    · exact ⟨steps, step, [], rfl, hgiven, by simp⟩
    · refine ⟨earlier, giving, later ++ [step], by simp, hgiven, ?_⟩
      intro next hnext
      rcases List.mem_append.1 hnext with hnext | hnext
      · exact hlater next hnext
      · obtain rfl := List.mem_singleton.1 hnext
        exact ⟨hnone, hover⟩

/-! ## Steps -/

/-- A step that sets a name fails when that is unknown, and sets it otherwise. -/
theorem take_set (store : Store) (name value : Text) :
    (store.type? name = none ∧
        store.take (.set name value) = .error (.unknownVariable ⟨name⟩)) ∨
      ∃ changed, store.take (.set name value) = .ok (changed, none) ∧
        store.set name value = .ok changed := by
  cases hset : store.set name value with
  | ok changed => exact .inr ⟨changed, by rw [take, hset], rfl⟩
  | error unknown =>
    obtain ⟨hnone, rfl⟩ := set_eq_error_iff.1 hset
    exact .inl ⟨hnone, by rw [take, hset]⟩

/-- A step that changes a name fails when that is unknown, and sets it otherwise. -/
theorem take_change (store : Store) (name raw : Text) :
    (store.type? name = none ∧
        store.take (.change name raw) = .error (.unknownVariable ⟨name⟩)) ∨
      ∃ changed value, store.take (.change name raw) = .ok (changed, some value) ∧
        store.set name value = .ok changed := by
  rcases store.change_eq name raw with ⟨hnone, hchange⟩ | ⟨value, changed, hchange, hset⟩
  · exact .inl ⟨hnone, by rw [take, hchange]⟩
  · exact .inr ⟨changed, value, by rw [take, hchange], hset⟩

/-- The name that a step gives a value, if it is of that kind. -/
def Step.assigned? : Step → Option Text
  | .set name _ => some name
  | .change name _ => some name
  | _ => none

/-- A step that gives a variable a value sets one, or fails because the name has no type. -/
theorem take_assigned (store : Store) {step : Step} {name : Text}
    (h : step.assigned? = some name) :
    (store.type? name = none ∧ store.take step = .error (.unknownVariable ⟨name⟩)) ∨
      ∃ changed answer value, store.take step = .ok (changed, answer) ∧
        store.set name value = .ok changed := by
  cases step with
  | set assigned value =>
    obtain rfl : assigned = name := Option.some.inj h
    apply (store.take_set assigned value).imp_right
    rintro ⟨changed, htake, hset⟩
    exact ⟨changed, none, value, htake, hset⟩
  | change assigned raw =>
    obtain rfl : assigned = name := Option.some.inj h
    apply (store.take_change assigned raw).imp_right
    rintro ⟨changed, value, htake, hset⟩
    exact ⟨changed, some value, value, htake, hset⟩
  | clear => simp [Step.assigned?] at h
  | load yaml => simp [Step.assigned?] at h
  | declare declared tag value => simp [Step.assigned?] at h

/-- A step that assigns to a name fails when that is unknown. -/
theorem take_assigned_fails_iff (store : Store) {step : Step} (name : Text)
    (h : step.assigned? = some name) :
    (∃ fault, store.take step = .error fault) ↔ store.type? name = none := by
  rcases store.take_assigned h with ⟨hnone, htake⟩ | ⟨changed, answer, value, htake, hset⟩
  · exact iff_of_true ⟨_, htake⟩ hnone
  · obtain ⟨found, hfound, -⟩ := set_eq_ok_iff.1 hset
    exact iff_of_false (by simp [htake]) (by simp [type?, hfound])

/-- The store after a step that succeeds is the one it gives. -/
theorem after_of_take {store changed : Store} {step : Step} {answer : Option Text}
    (h : store.take step = .ok (changed, answer)) : store.after step = changed := by
  rw [after, h]

/-- A step that fails leaves the store as it is. -/
theorem after_of_take_error {store : Store} {step : Step} {fault : StepFault}
    (h : store.take step = .error fault) : store.after step = store := by
  rw [after, h]

/-- A step that assigns to a name keeps all types. -/
theorem type?_after_assigned (store : Store) {step : Step} (assigned : Text)
    (h : step.assigned? = some assigned) (name : Text) :
    (store.after step).type? name = store.type? name := by
  rcases store.take_assigned h with ⟨-, htake⟩ | ⟨changed, answer, value, htake, hset⟩
  · rw [after_of_take_error htake]
  · rw [after_of_take htake, type?_of_set hset]

/-- What a step makes of the type of a name. -/
theorem type?_after (store : Store) (step : Step) (name : Text) :
    (store.after step).type? name =
      (step.typeGiven? name).or (if step.startsOver then none else store.type? name) := by
  cases step with
  | clear => rfl
  | load yaml =>
    cases hyaml : Schema.ofYaml yaml with
    | ok schema =>
      simp only [after, take, Step.typeGiven?, Step.startsOver, hyaml]
      exact (Option.or_none).symm
    | error fault =>
      simp only [after, take, Step.typeGiven?, Step.startsOver, hyaml]
      rfl
  | declare declared tag value =>
    simp only [after, take, Step.typeGiven?, Step.startsOver, TargetType.ofTag]
    cases TargetType.ofTag? tag with
    | none => simp
    | some type =>
      show ((store.slots.insert declared ⟨type, value⟩).get? name).map Variable.type = _
      rw [NameMap.get?_insert]
      by_cases hname : name = declared
      · simp [hname]
      · simp only [if_neg hname]
        rfl
  | set assigned value => exact store.type?_after_assigned assigned rfl name
  | change assigned raw => exact store.type?_after_assigned assigned rfl name

/-! ## Runs -/

/-- A run with one more step is the run, and then the step. -/
theorem run_append_singleton (steps : List Step) (step : Step) :
    run (steps ++ [step]) = (run steps).after step := by
  rw [run, List.foldl_append]
  rfl

/-- After a run a name has the type that it was given last. -/
theorem type?_run_eq_some_iff (steps : List Step) (name : Text) (type : TargetType) :
    (run steps).type? name = some type ↔ LastGiven steps name type := by
  -- the last step decides, so the induction takes the steps from the end
  induction steps using List.reverseRecOn with
  | nil =>
    have hnone : (run []).type? name = none := rfl
    exact iff_of_false (by rw [hnone]; simp) not_lastGiven_nil
  | append_singleton steps step ih =>
    rw [run_append_singleton, type?_after, lastGiven_append_singleton, ← ih]
    cases step.typeGiven? name <;> cases step.startsOver <;> simp

/-- After a run a name has no type when it was never given one. -/
theorem type?_run_eq_none_iff (steps : List Step) (name : Text) :
    (run steps).type? name = none ↔ ∀ type, ¬ LastGiven steps name type := by
  rw [Option.eq_none_iff_forall_ne_some]
  apply forall_congr'
  intro type
  exact not_congr (type?_run_eq_some_iff steps name type)

/-- After a run the names are in the order of their code points, each once. -/
theorem names_run (steps : List Step) :
    ((run steps).slots.entries.map Prod.fst).Pairwise fun first second =>
      first.map Char.toNat < second.map Char.toNat := by
  rw [List.pairwise_map]
  apply (run steps).slots.increasing.imp
  intro first second hlt
  exact (Text.lt_iff_codePoints_lt _ _).1 hlt

/-- A step of a run that sets a name sets its value only. -/
theorem run_set (steps : List Step) {name value : Text} {result : Store × Option Text}
    (h : (run steps).take (.set name value) = .ok result) :
    SetsValue name value (run steps) (run (steps ++ [.set name value])) := by
  rcases (run steps).take_set name value with ⟨-, htake⟩ | ⟨changed, htake, hset⟩
  · rw [htake] at h
    simp at h
  · rw [run_append_singleton, after_of_take htake]
    exact setsValue_of_set hset

/-- A step of a run that changes a name sets it to the answer, and nothing else. -/
theorem run_change (steps : List Step) {name raw : Text} {result : Store × Option Text}
    (h : (run steps).take (.change name raw) = .ok result) :
    ∃ value, result.2 = some value ∧
      SetsValue name value (run steps) (run (steps ++ [.change name raw])) := by
  rcases (run steps).take_change name raw with ⟨-, htake⟩ | ⟨changed, value, htake, hset⟩
  · rw [htake] at h
    simp at h
  · rw [htake] at h
    obtain rfl := Except.ok.inj h
    rw [run_append_singleton, after_of_take htake]
    exact ⟨value, rfl, setsValue_of_set hset⟩

/-- After every history the names are in order, the history tells the types, a step that fails
changes nothing, and a value that is set or changed is all that changes, which fails just where the
history gives the name no type. -/
theorem run_lawful (steps : List Step) :
    ((run steps).slots.entries.map Prod.fst).Pairwise
        (fun first second => first.map Char.toNat < second.map Char.toNat) ∧
      (∀ step fault, (run steps).take step = .error fault → run (steps ++ [step]) = run steps) ∧
      (∀ name value result, (run steps).take (.set name value) = .ok result →
        SetsValue name value (run steps) (run (steps ++ [.set name value]))) ∧
      (∀ name raw result, (run steps).take (.change name raw) = .ok result →
        ∃ value, result.2 = some value ∧
          SetsValue name value (run steps) (run (steps ++ [.change name raw]))) ∧
      (∀ name value, (∃ fault, (run steps).take (.set name value) = .error fault) ↔
        ∀ type, ¬ LastGiven steps name type) ∧
      (∀ name raw, (∃ fault, (run steps).take (.change name raw) = .error fault) ↔
        ∀ type, ¬ LastGiven steps name type) ∧
      ∀ name type, (run steps).type? name = some type ↔ LastGiven steps name type := by
  refine ⟨names_run steps, ?_, ?_, ?_, ?_, ?_, type?_run_eq_some_iff steps⟩
  · intro step fault hfault
    rw [run_append_singleton, after_of_take_error hfault]
  · intro name value result hresult
    exact run_set steps hresult
  · intro name raw result hresult
    exact run_change steps hresult
  · intro name value
    rw [take_assigned_fails_iff _ name rfl, type?_run_eq_none_iff]
  · intro name raw
    rw [take_assigned_fails_iff _ name rfl, type?_run_eq_none_iff]

/-- A declared variable is changed from its own value, and one that a failed declaration names is
not there to be set. -/
theorem run_lawful_counter :
    let steps : List Step :=
      [.load "n: [LONG, '1']".toList, .declare ['n'] "int".toList ['1'],
        .declare ['m'] "decimal".toList ['2']]
    let raw := "\x7bn\x7d + 1".toList
    SetsValue ['n'] ['2'] (run steps) (run (steps ++ [.change ['n'] raw])) ∧
      LastGiven steps ['n'] .int ∧ run (steps ++ [.set ['m'] ['3']]) = run steps := by
  intro steps raw
  obtain ⟨-, hfails, -, hchange, -, -, htype⟩ := run_lawful steps
  have hanswer : ((run steps).take (.change ['n'] raw)).toOption.bind Prod.snd = some ['2'] := by
    decide +kernel
  have hnone : (run steps).type? ['m'] = none := by
    decide +kernel
  refine ⟨?_, (htype ['n'] .int).1 (by decide +kernel), ?_⟩
  · cases hresult : (run steps).take (.change ['n'] raw) with
    | error fault =>
      rw [hresult] at hanswer
      simp [Except.toOption] at hanswer
    | ok result =>
      rw [hresult] at hanswer
      obtain ⟨value, hvalue, hsets⟩ := hchange ['n'] raw result hresult
      obtain rfl : value = ['2'] := Option.some.inj (hvalue.symm.trans hanswer)
      exact hsets
  · have hassigned : (Step.set ['m'] ['3']).assigned? = some ['m'] := rfl
    obtain ⟨fault, hfault⟩ := (take_assigned_fails_iff (run steps) ['m'] hassigned).2 hnone
    exact hfails (.set ['m'] ['3']) fault hfault

end TypedVars.Store
