import Mathlib.Data.List.Forall2

/-!
# Steps that may fail, one after another

A step is taken for each element of a list, up to the first one that fails.
-/

namespace IncludeGate.Sequence

variable {α β ε : Type} {step : α → Except ε β} {items : List α}

theorem map_eq_ok_iff {result : Except ε α} {change : α → β} {changed : β} :
    result.map change = .ok changed ↔ ∃ value, result = .ok value ∧ change value = changed := by
  cases result with
  | error found => simp [Except.map]
  | ok value => simp [Except.map]

theorem bind_eq_ok_iff {first : Except ε α} {next : α → Except ε β} {result : β} :
    first >>= next = .ok result ↔ ∃ value, first = .ok value ∧ next value = .ok result := by
  cases first with
  | error found => simp [bind, Except.bind]
  | ok value => simp [bind, Except.bind]

theorem map_eq_error_iff {result : Except ε α} {change : α → β} {error : ε} :
    result.map change = .error error ↔ result = .error error := by
  cases result with
  | error found => simp [Except.map]
  | ok value => simp [Except.map]

theorem mapError_eq_ok_iff {result : Except ε α} {change : ε → β} {value : α} :
    result.mapError change = .ok value ↔ result = .ok value := by
  cases result with
  | error found => simp [Except.mapError]
  | ok value => simp [Except.mapError]

/-- If every step succeeds, so do all of them together. -/
theorem mapM_ok {result : α → β} (each : ∀ item ∈ items, step item = .ok (result item)) :
    items.mapM step = .ok (items.map result) := by
  induction items with
  | nil => rfl
  | cons item items ih =>
      obtain ⟨first, others⟩ := List.forall_mem_cons.mp each
      rw [List.mapM_cons, first, ih others]
      rfl

/-- If some step fails, all of them together do. -/
theorem exists_mapM_error {item : α} (member : item ∈ items)
    (fails : ∃ error, step item = .error error) : ∃ error, items.mapM step = .error error := by
  induction items with
  | nil => contradiction
  | cons first items ih =>
      rw [List.mapM_cons]
      cases here : step first with
      | error error => exact ⟨error, rfl⟩
      | ok value =>
          rcases List.mem_cons.mp member with rfl | member
          · obtain ⟨error, failed⟩ := fails
            rw [here] at failed
            contradiction
          · obtain ⟨error, failed⟩ := ih member
            rw [failed]
            exact ⟨error, rfl⟩

/-- The error is that of the first step that fails, whatever comes after it. -/
theorem mapM_error {earlier later : List α} {item : α} {error : ε}
    (succeed : ∀ other ∈ earlier, ∃ result, step other = .ok result)
    (fails : step item = .error error) :
    (earlier ++ item :: later).mapM step = .error error := by
  induction earlier with
  | nil =>
      rw [List.nil_append, List.mapM_cons, fails]
      rfl
  | cons first earlier ih =>
      obtain ⟨⟨result, here⟩, others⟩ := List.forall_mem_cons.mp succeed
      rw [List.cons_append, List.mapM_cons, here, ih others]
      rfl

/-- If the steps fail together, there is a first one that does. -/
theorem exists_of_mapM_error {error : ε} (failed : items.mapM step = .error error) :
    ∃ earlier item later, items = earlier ++ item :: later ∧
      (∀ other ∈ earlier, ∃ result, step other = .ok result) ∧ step item = .error error := by
  induction items with
  | nil => contradiction
  | cons first items ih =>
      rw [List.mapM_cons] at failed
      cases here : step first with
      | error found =>
          rw [here] at failed
          cases failed
          exact ⟨[], first, items, rfl, fun _ member => absurd member List.not_mem_nil, here⟩
      | ok result =>
          have rest : items.mapM step = .error error := by
            cases rest : items.mapM step with
            | error found =>
                rw [here, rest] at failed
                exact failed
            | ok results =>
                rw [here, rest] at failed
                contradiction
          obtain ⟨earlier, item, later, rfl, succeed, fails⟩ := ih rest
          exact ⟨first :: earlier, item, later, rfl,
            List.forall_mem_cons.mpr ⟨⟨result, here⟩, succeed⟩, fails⟩

/-- The steps succeed together exactly when each of them does. -/
theorem mapM_eq_ok_iff {results : List β} :
    items.mapM step = .ok results ↔
      List.Forall₂ (fun item result => step item = .ok result) items results := by
  induction items generalizing results with
  | nil =>
      rw [List.mapM_nil, List.forall₂_nil_left_iff]
      exact ⟨fun done => (Except.ok.inj done).symm, fun empty => congrArg Except.ok empty.symm⟩
  | cons item items ih =>
      simp only [List.mapM_cons, bind_eq_ok_iff, List.forall₂_cons_left_iff, ih]
      constructor
      · rintro ⟨first, here, others, rest, done⟩
        cases done
        exact ⟨first, others, here, rest, rfl⟩
      · rintro ⟨first, others, here, rest, rfl⟩
        exact ⟨first, here, others, rest, rfl⟩

/-- Each element is related to some other one. -/
theorem exists_of_forall₂ {relation : α → β → Prop} {results : List β}
    (related : List.Forall₂ relation items results) {item : α} (member : item ∈ items) :
    ∃ result, relation item result := by
  have each := related.imp fun _ result here => And.intro (Exists.intro result here) here
  exact ((List.forall₂_and_left _ _).mp each).1 item member

/-- Relations that are the same for each element are the same for the list. -/
theorem forall₂_congr {first second : α → β → Prop} {results : List β}
    (same : ∀ item ∈ items, ∀ result, first item result ↔ second item result) :
    List.Forall₂ first items results ↔ List.Forall₂ second items results := by
  induction items generalizing results with
  | nil => simp
  | cons item items ih =>
      obtain ⟨here, others⟩ := List.forall_mem_cons.mp same
      simp only [List.forall₂_cons_left_iff, here, ih others]

/-- All elements are read exactly when each of them is. -/
theorem mapM_eq_some_iff {read : α → Option β} {results : List β} :
    items.mapM read = some results ↔
      List.Forall₂ (fun item result => read item = some result) items results := by
  induction items generalizing results with
  | nil =>
      rw [List.mapM_nil, List.forall₂_nil_left_iff]
      exact ⟨fun done => (Option.some.inj done).symm, fun empty => congrArg some empty.symm⟩
  | cons item items ih =>
      simp only [List.mapM_cons, Option.bind_eq_bind, Option.bind_eq_some_iff, Option.pure_def,
        Option.some.injEq, List.forall₂_cons_left_iff, ih]
      constructor
      · rintro ⟨first, here, others, rest, rfl⟩
        exact ⟨first, others, here, rest, rfl⟩
      · rintro ⟨first, others, here, rest, rfl⟩
        exact ⟨first, here, others, rest, rfl⟩

/-- All elements can be read exactly when each of them can. -/
theorem exists_mapM_eq_some_iff {read : α → Option β} :
    (∃ results, items.mapM read = some results) ↔
      ∀ item ∈ items, ∃ result, read item = some result := by
  induction items with
  | nil => simp
  | cons item items ih =>
      rw [List.forall_mem_cons, ← ih]
      simp only [mapM_eq_some_iff, List.forall₂_cons_left_iff]
      constructor
      · rintro ⟨_, first, others, here, rest, rfl⟩
        exact ⟨⟨first, here⟩, others, rest⟩
      · rintro ⟨⟨first, here⟩, others, rest⟩
        exact ⟨_, first, others, here, rest, rfl⟩

end IncludeGate.Sequence
