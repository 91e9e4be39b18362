import IncludeGate.Toml

/-!
# Tables under construction

A document names the members of a table in several places: under the header of the
table, by dotted keys, and under the headers of tables inside it.  A table may be
opened by a header once; a table that only headers of inner tables have passed
through may still be opened; a table that dotted keys have made or passed through
is never opened and takes further members by dotted keys only.  Among tables that
double headers have opened, both kinds of path lead into the latest one, which
takes members under its header only.  A value, which includes every inline table
and every written array, is never extended.

The members stand in the increasing order of their keys, wherever the document
names them, so a table depends on what the document says and not on where.
-/

namespace IncludeGate.Toml

/-- How a table came to be. -/
inductive Origin where
  /-- A header opened it. -/
  | header
  /-- A header of a table inside it passed through it. -/
  | passedThrough
  /-- A dotted key made it or passed through it. -/
  | dottedKey
  deriving DecidableEq, Repr

/-- A member of a table under construction. -/
inductive Node where
  | value (value : Toml)
  | table (origin : Origin) (members : List (String × Node))
  /-- Tables that double headers have opened, the latest one last. -/
  | tables (elements : List (List (String × Node)))

/-- The members of a table under construction. -/
abbrev Members := List (String × Node)

/-- Change or add the member with a key.  A new member comes before the first one
with a greater key. -/
def alter (key : String) (change : Option Node → Option Node) : Members → Option Members
  | [] => (change none).map fun node => [(key, node)]
  | (other, node) :: rest =>
      if key < other then
        (change none).map fun added => (key, added) :: (other, node) :: rest
      else if other < key then
        (alter key change rest).map fun rest => (other, node) :: rest
      else
        (change (some node)).map fun changed => (other, changed) :: rest

/-- Each key is less than all that follow. -/
def IsOrdered (members : Members) : Prop :=
  members.Pairwise fun left right => left.1 < right.1

/-- A change adds no key but the given one. -/
theorem key_mem_of_alter {key : String} {change : Option Node → Option Node}
    {members changed : Members} (altered : alter key change members = some changed) :
    ∀ member ∈ changed, member.1 = key ∨ ∃ old ∈ members, old.1 = member.1 := by
  induction members generalizing changed with
  | nil =>
      obtain ⟨node, _, rfl⟩ := Option.map_eq_some_iff.mp altered
      simp
  | cons first rest ih =>
      obtain ⟨other, node⟩ := first
      unfold alter at altered
      split at altered
      · obtain ⟨added, _, rfl⟩ := Option.map_eq_some_iff.mp altered
        grind
      · split at altered
        · obtain ⟨after, found, rfl⟩ := Option.map_eq_some_iff.mp altered
          intro member isMember
          rcases List.mem_cons.mp isMember with rfl | isMember
          · simp
          · have := ih found member isMember
            grind
        · obtain ⟨replaced, _, rfl⟩ := Option.map_eq_some_iff.mp altered
          grind

/-- A change keeps the order of the keys. -/
theorem isOrdered_alter {key : String} {change : Option Node → Option Node}
    {members changed : Members} (ordered : IsOrdered members)
    (altered : alter key change members = some changed) : IsOrdered changed := by
  induction members generalizing changed with
  | nil =>
      obtain ⟨node, _, rfl⟩ := Option.map_eq_some_iff.mp altered
      exact List.pairwise_singleton _ _
  | cons first rest ih =>
      obtain ⟨other, node⟩ := first
      obtain ⟨below, tail⟩ := List.pairwise_cons.mp ordered
      unfold alter at altered
      split at altered
      · rename_i less
        obtain ⟨added, _, rfl⟩ := Option.map_eq_some_iff.mp altered
        refine List.pairwise_cons.mpr ⟨fun member isMember => ?_, ordered⟩
        rcases List.mem_cons.mp isMember with rfl | isMember
        · exact less
        · exact String.lt_trans less (below member isMember)
      · split at altered
        · rename_i greater
          obtain ⟨after, found, rfl⟩ := Option.map_eq_some_iff.mp altered
          refine List.pairwise_cons.mpr ⟨fun member isMember => ?_, ih tail found⟩
          rcases key_mem_of_alter found member isMember with same | ⟨old, isOld, same⟩
          · exact same ▸ greater
          · exact same ▸ below old isOld
        · obtain ⟨replaced, _, rfl⟩ := Option.map_eq_some_iff.mp altered
          exact List.pairwise_cons.mpr ⟨below, tail⟩

/-- Change the last one of several tables. -/
def alterLast (change : Members → Option Members) :
    List Members → Option (List Members)
  | [] => none
  | [last] => (change last).map fun changed => [changed]
  | first :: rest => (alterLast change rest).map fun rest => first :: rest

/-- Follow the path of a header and change what its last key names.  Missing
tables are made on the way. -/
def follow (change : Option Node → Option Node) : List String → Members → Option Members
  | [] => fun _ => none
  | [key] => alter key change
  | key :: path => alter key fun node =>
      match node with
      | none => (follow change path []).map (.table .passedThrough)
      | some (.table origin members) => (follow change path members).map (.table origin)
      | some (.tables elements) => (alterLast (follow change path) elements).map .tables
      | some (.value _) => none

/-- Open the table that a header names. -/
def openTable : List String → Members → Option Members :=
  follow fun node =>
    match node with
    | none => some (.table .header [])
    | some (.table .passedThrough members) => some (.table .header members)
    | _ => none

/-- Open another one of the tables that a double header names. -/
def openElement : List String → Members → Option Members :=
  follow fun node =>
    match node with
    | none => some (.tables [[]])
    | some (.tables elements) => some (.tables (elements ++ [[]]))
    | _ => none

/-- Add a value under a dotted key.  The keys before the last one lead through
tables without a header of their own, of which the last one takes the value, and
into the latest of several tables, which does not take the value itself. -/
def addValue (value : Toml) : List String → Members → Option Members
  | [] => fun _ => none
  | [key] => alter key fun node =>
      match node with
      | none => some (.value value)
      | some _ => none
  | key :: path => alter key fun node =>
      match node with
      | none => (addValue value path []).map (.table .dottedKey)
      | some (.table .dottedKey members) | some (.table .passedThrough members) =>
          (addValue value path members).map (.table .dottedKey)
      | some (.tables elements) =>
          if path.length = 1 then none
          else (alterLast (addValue value path) elements).map .tables
      | some (.table .header _) | some (.value _) => none

/-- Add a value under a dotted key in the table that the path of a header leads
to. -/
def addValueAt (header : List String) (keys : List String) (value : Toml)
    (root : Members) : Option Members :=
  match header with
  | [] => addValue value keys root
  | _ => follow (fun node =>
      match node with
      | some (.table origin members) => (addValue value keys members).map (.table origin)
      | some (.tables elements) => (alterLast (addValue value keys) elements).map .tables
      | _ => none) header root

mutual

/-- The value of a finished member. -/
def Node.close : Node → Toml
  | .value value => value
  | .table _ members => .table (closeMembers members)
  | .tables elements => .array (closeElements elements)

/-- The values of finished members. -/
def closeMembers : List (String × Node) → List (String × Toml)
  | [] => []
  | (key, node) :: rest => (key, node.close) :: closeMembers rest

/-- The values of finished tables. -/
def closeElements : List (List (String × Node)) → List Toml
  | [] => []
  | members :: rest => .table (closeMembers members) :: closeElements rest

end

end IncludeGate.Toml
