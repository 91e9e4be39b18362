/-!
# Sets of strings

A set of strings is the list of its members in increasing order, each once.
Strings are ordered by code points, which is also the order of their UTF-8
octets.  Because the list is determined by the members, two sets with the same
members are equal, and the first member that has some property is the least one.
-/

namespace IncludeGate

/-- A finite set of strings, listed in increasing order. -/
structure StringSet where
  /-- The members in increasing order. -/
  toList : List String
  /-- Each member is less than all that follow. -/
  increasing : toList.Pairwise (· < ·)
  deriving DecidableEq, Repr

namespace StringSet

instance : Membership String StringSet where
  mem entries entry := entry ∈ entries.toList

instance (entry : String) (entries : StringSet) : Decidable (entry ∈ entries) :=
  inferInstanceAs (Decidable (entry ∈ entries.toList))

@[simp] theorem mem_toList {entry : String} {entries : StringSet} :
    entry ∈ entries.toList ↔ entry ∈ entries := Iff.rfl

/-- The set without members. -/
def empty : StringSet := ⟨[], .nil⟩

instance : Inhabited StringSet := ⟨empty⟩

@[simp] theorem not_mem_empty {entry : String} : ¬ entry ∈ empty :=
  List.not_mem_nil

/-- Put a string into its place in an increasing list. -/
def place (entry : String) : List String → List String
  | [] => [entry]
  | first :: rest =>
      if entry < first then entry :: first :: rest
      else if first < entry then first :: place entry rest
      else first :: rest

private theorem eq_of_not_lt {left right : String}
    (notBelow : ¬ left < right) (notAbove : ¬ right < left) : left = right :=
  String.le_antisymm (String.not_lt.mp notAbove) (String.not_lt.mp notBelow)

theorem mem_place {entry other : String} {entries : List String} :
    other ∈ place entry entries ↔ other = entry ∨ other ∈ entries := by
  induction entries with
  | nil => simp [place]
  | cons first rest ih =>
      unfold place
      split
      · simp
      · split
        · simp only [List.mem_cons, ih]
          grind
        · rename_i notBelow notAbove
          have same := eq_of_not_lt notBelow notAbove
          simp [same]

theorem place_increasing {entry : String} {entries : List String}
    (increasing : entries.Pairwise (· < ·)) :
    (place entry entries).Pairwise (· < ·) := by
  induction entries with
  | nil => simp [place]
  | cons first rest ih =>
      obtain ⟨below, tail⟩ := List.pairwise_cons.mp increasing
      unfold place
      split
      · rename_i less
        refine List.pairwise_cons.mpr ⟨fun other member => ?_, increasing⟩
        rcases List.mem_cons.mp member with rfl | member
        · exact less
        · exact String.lt_trans less (below other member)
      · split
        · rename_i greater
          refine List.pairwise_cons.mpr ⟨fun other member => ?_, ih tail⟩
          rcases mem_place.mp member with rfl | member
          · exact greater
          · exact below other member
        · exact increasing

/-- The set with one more member. -/
def insert (entries : StringSet) (entry : String) : StringSet :=
  ⟨place entry entries.toList, place_increasing entries.increasing⟩

@[simp] theorem mem_insert {entries : StringSet} {entry other : String} :
    other ∈ entries.insert entry ↔ other = entry ∨ other ∈ entries :=
  mem_place

/-- The set of the strings in a list. -/
def ofList : List String → StringSet
  | [] => empty
  | entry :: rest => (ofList rest).insert entry

@[simp] theorem mem_ofList {entry : String} {list : List String} :
    entry ∈ ofList list ↔ entry ∈ list := by
  induction list with
  | nil => simp [ofList]
  | cons first rest ih => simp [ofList, ih]

/-- The members of the first set that the second one lacks. -/
def sdiff (entries removed : StringSet) : StringSet :=
  ⟨entries.toList.filter (· ∉ removed), entries.increasing.filter _⟩

instance : SDiff StringSet := ⟨sdiff⟩

@[simp] theorem mem_sdiff {entries removed : StringSet} {entry : String} :
    entry ∈ entries \ removed ↔ entry ∈ entries ∧ ¬ entry ∈ removed := by
  change entry ∈ entries.toList.filter (· ∉ removed) ↔ _
  simp

private theorem eq_of_increasing {left right : List String}
    (leftIncreasing : left.Pairwise (· < ·)) (rightIncreasing : right.Pairwise (· < ·))
    (same : ∀ entry, entry ∈ left ↔ entry ∈ right) : left = right := by
  induction left generalizing right with
  | nil =>
      cases right with
      | nil => rfl
      | cons first rest => exact absurd ((same first).mpr (by simp)) (by simp)
  | cons first rest ih =>
      cases right with
      | nil => exact absurd ((same first).mp (by simp)) (by simp)
      | cons other others =>
          obtain ⟨below, restIncreasing⟩ := List.pairwise_cons.mp leftIncreasing
          obtain ⟨otherBelow, othersIncreasing⟩ := List.pairwise_cons.mp rightIncreasing
          have firstEqual : first = other := by
            rcases List.mem_cons.mp ((same first).mp (by simp)) with equal | member
            · exact equal
            rcases List.mem_cons.mp ((same other).mpr (by simp)) with equal | otherMember
            · exact equal.symm
            exact absurd (otherBelow first member) (String.lt_asymm (below other otherMember))
          subst firstEqual
          have restSame : ∀ entry, entry ∈ rest ↔ entry ∈ others := by
            intro entry
            constructor
            · intro member
              rcases List.mem_cons.mp ((same entry).mp (List.mem_cons_of_mem _ member)) with
                rfl | found
              · exact absurd (below entry member) (String.lt_irrefl entry)
              · exact found
            · intro member
              rcases List.mem_cons.mp ((same entry).mpr (List.mem_cons_of_mem _ member)) with
                rfl | found
              · exact absurd (otherBelow entry member) (String.lt_irrefl entry)
              · exact found
          rw [ih restIncreasing othersIncreasing restSame]

/-- Sets with the same members are equal. -/
@[ext] theorem ext {left right : StringSet}
    (same : ∀ entry, entry ∈ left ↔ entry ∈ right) : left = right := by
  obtain ⟨leftList, leftIncreasing⟩ := left
  obtain ⟨rightList, rightIncreasing⟩ := right
  have lists : leftList = rightList :=
    eq_of_increasing leftIncreasing rightIncreasing same
  subst lists
  rfl

end StringSet

end IncludeGate
