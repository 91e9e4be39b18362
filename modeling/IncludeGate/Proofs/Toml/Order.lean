import IncludeGate.Proofs.Toml.Keys

/-!
# The order of keys

Two values say the same in another order if their tables, at any depth, have the same keys in
any order and say the same under each of them.  Arrays keep their order.  As no key stands
twice, this is a relation between the members under one key, and it holds in both directions.
-/

namespace IncludeGate.Toml

/-- The same value but for the order of the keys in its tables. -/
inductive Reorders : Toml → Toml → Prop where
  | same (value : Toml) : Reorders value value
  | array {items others : List Toml} :
      items.length = others.length →
      (∀ (place : Nat) item other, items[place]? = some item → others[place]? = some other →
        Reorders item other) →
      Reorders (.array items) (.array others)
  | table {members others : List (String × Toml)} :
      (members.map (·.1)).Perm (others.map (·.1)) →
      (∀ key value other, (key, value) ∈ members → (key, other) ∈ others →
        Reorders value other) →
      Reorders (.table members) (.table others)

variable {value other : Toml} {items others : List Toml}

theorem Reorders.symm (reorders : Reorders value other) : Reorders other value := by
  induction reorders with
  | same value => exact .same value
  | array long _ ih =>
      apply Reorders.array long.symm
      intro place other item there here
      exact ih place item other here there
  | table keys _ ih =>
      apply Reorders.table keys.symm
      intro key other value there here
      exact ih key value other here there

/-- A table whose members change their places says the same. -/
theorem reorders_of_perm {members reordered : List (String × Toml)}
    (nodup : (members.map (·.1)).Nodup) (perm : members.Perm reordered) :
    (Toml.table members).Reorders (.table reordered) := by
  apply Reorders.table (perm.map _)
  intro key value other here there
  have same := List.inj_on_of_nodup_map nodup here (perm.mem_iff.mpr there) rfl
  cases same
  exact .same value

/-- Under each key of a table there is a value in the other one, which says the same. -/
theorem Reorders.exists_of_mem {members reordered : List (String × Toml)}
    (reorders : Reorders (.table members) (.table reordered)) {key : String}
    (member : (key, value) ∈ members) :
    ∃ other, (key, other) ∈ reordered ∧ Reorders value other := by
  cases reorders with
  | same => exact ⟨value, member, .same value⟩
  | table keys each =>
      have known : key ∈ members.map (·.1) := List.mem_map_of_mem member
      obtain ⟨⟨other, found⟩, there, rfl⟩ := List.mem_map.mp (keys.mem_iff.mp known)
      exact ⟨found, there, each _ _ _ member there⟩

/-- Items in the same places say the same. -/
theorem Reorders.exists_array (reorders : Reorders (.array items) value) :
    ∃ others, value = .array others ∧ List.Forall₂ Reorders items others := by
  cases reorders with
  | same => exact ⟨items, rfl, List.forall₂_same.mpr fun item _ => .same item⟩
  | @array _ others long each =>
      refine ⟨others, rfl, List.forall₂_iff_get.mpr ⟨long, ?_⟩⟩
      intro place here there
      exact each place _ _ (List.getElem?_eq_getElem here) (List.getElem?_eq_getElem there)

theorem reorders_of_forall₂ (each : List.Forall₂ Reorders items others) :
    (Toml.array items).Reorders (.array others) := by
  obtain ⟨long, same⟩ := List.forall₂_iff_get.mp each
  apply Reorders.array long
  intro place item other here there
  obtain ⟨inside, rfl⟩ := List.getElem?_eq_some_iff.mp here
  obtain ⟨within, rfl⟩ := List.getElem?_eq_some_iff.mp there
  exact same place inside within

theorem Reorders.exists_table {members : List (String × Toml)}
    (reorders : Reorders (.table members) value) : ∃ reordered, value = .table reordered := by
  cases reorders with
  | same => exact ⟨members, rfl⟩
  | @table _ others _ _ => exact ⟨others, rfl⟩

theorem Reorders.hasDistinctKeys (reorders : Reorders value other)
    (distinct : value.HasDistinctKeys) : other.HasDistinctKeys := by
  induction reorders with
  | same => exact distinct
  | @array items others long _ ih =>
      apply HasDistinctKeys.array
      intro other member
      obtain ⟨place, inside, rfl⟩ := List.getElem_of_mem member
      have here : place < items.length := long ▸ inside
      exact ih place _ _ (List.getElem?_eq_getElem here) (List.getElem?_eq_getElem inside)
        (distinct.of_mem_items _ (List.getElem_mem here))
  | @table members others keys _ ih =>
      apply HasDistinctKeys.table (keys.nodup_iff.mp distinct.nodup)
      rintro ⟨key, other⟩ member
      have known : key ∈ others.map (·.1) := List.mem_map_of_mem member
      obtain ⟨⟨_, value⟩, here, rfl⟩ := List.mem_map.mp (keys.mem_iff.mpr known)
      exact ih _ _ _ here member (distinct.of_mem_members _ here)

end IncludeGate.Toml
