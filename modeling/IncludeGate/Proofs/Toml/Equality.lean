import IncludeGate.Toml

/-!
# Equality of values

Values are compared part by part, arrays item by item and tables member by member, so that what
a document says can be tested.
-/

namespace IncludeGate.Toml

mutual

/-- Whether two values are the same one. -/
def same : Toml → Toml → Bool
  | .string value, .string other => value == other
  | .integer value, .integer other => value == other
  | .float value, .float other => value == other
  | .boolean value, .boolean other => value == other
  | .datetime, .datetime => true
  | .unrepresentable, .unrepresentable => true
  | .array items, .array others => sameItems items others
  | .table members, .table others => sameMembers members others
  | _, _ => false

/-- Whether two arrays have the same items. -/
def sameItems : List Toml → List Toml → Bool
  | [], [] => true
  | item :: items, other :: others => item.same other && sameItems items others
  | _, _ => false

/-- Whether two tables have the same members. -/
def sameMembers : List (String × Toml) → List (String × Toml) → Bool
  | [], [] => true
  | (key, value) :: members, (otherKey, other) :: others =>
      key == otherKey && value.same other && sameMembers members others
  | _, _ => false

end

mutual

theorem same_iff (value other : Toml) : value.same other ↔ value = other := by
  cases value with
  | array items =>
      cases other with
      | array others => rw [same, sameItems_iff items others, array.injEq]
      | _ => simp [same]
  | table members =>
      cases other with
      | table others => rw [same, sameMembers_iff members others, table.injEq]
      | _ => simp [same]
  | _ => cases other <;> simp [same]

theorem sameItems_iff (items others : List Toml) : sameItems items others ↔ items = others := by
  match items, others with
  | [], [] => simp [sameItems]
  | [], _ :: _ => simp [sameItems]
  | _ :: _, [] => simp [sameItems]
  | item :: items, other :: others =>
      rw [sameItems, Bool.and_eq_true, same_iff item other, sameItems_iff items others,
        List.cons.injEq]

theorem sameMembers_iff (members others : List (String × Toml)) :
    sameMembers members others ↔ members = others := by
  match members, others with
  | [], [] => simp [sameMembers]
  | [], _ :: _ => simp [sameMembers]
  | _ :: _, [] => simp [sameMembers]
  | (key, value) :: members, (otherKey, other) :: others =>
      rw [sameMembers, Bool.and_eq_true, Bool.and_eq_true, same_iff value other,
        sameMembers_iff members others, beq_iff_eq, List.cons.injEq, Prod.mk.injEq]

end

instance : DecidableEq Toml :=
  fun value other => decidable_of_iff _ (same_iff value other)

end IncludeGate.Toml
