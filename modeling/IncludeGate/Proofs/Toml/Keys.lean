import IncludeGate.Toml.Document
import Mathlib.Data.List.Nodup

/-!
# Keys stand once

No table of a document has a key twice, at any depth.  Tables under construction keep their
members in the order of their keys, and a member is changed or added in one place; so whatever
path a header or a dotted key takes, the tables on its way stay in order.  Readers of values
add nothing else to a table.
-/

namespace IncludeGate.Toml

open Text

/-- A value without parts. -/
def IsScalar : Toml → Prop
  | .array _ | .table _ => False
  | _ => True

/-- No table in a value has a key twice. -/
inductive HasDistinctKeys : Toml → Prop where
  | scalar {value : Toml} : value.IsScalar → HasDistinctKeys value
  | array {items : List Toml} : (∀ item ∈ items, HasDistinctKeys item) →
      HasDistinctKeys (.array items)
  | table {members : List (String × Toml)} :
      (members.map (·.1)).Nodup → (∀ member ∈ members, HasDistinctKeys member.2) →
      HasDistinctKeys (.table members)

theorem HasDistinctKeys.of_mem_items {items : List Toml}
    (distinct : (Toml.array items).HasDistinctKeys) : ∀ item ∈ items, item.HasDistinctKeys := by
  cases distinct with
  | scalar scalar => exact absurd scalar id
  | array each => exact each

theorem HasDistinctKeys.of_mem_members {members : List (String × Toml)}
    (distinct : (Toml.table members).HasDistinctKeys) :
    ∀ member ∈ members, member.2.HasDistinctKeys := by
  cases distinct with
  | scalar scalar => exact absurd scalar id
  | table _ each => exact each

theorem HasDistinctKeys.nodup {members : List (String × Toml)}
    (distinct : (Toml.table members).HasDistinctKeys) : (members.map (·.1)).Nodup := by
  cases distinct with
  | scalar scalar => exact absurd scalar id
  | table nodup _ => exact nodup

/-- There is one value under a key. -/
theorem HasDistinctKeys.unique {members : List (String × Toml)} {key : String}
    {value other : Toml} (distinct : (Toml.table members).HasDistinctKeys)
    (here : (key, value) ∈ members) (there : (key, other) ∈ members) : value = other :=
  congrArg Prod.snd (List.inj_on_of_nodup_map distinct.nodup here there rfl)

/-- A member under construction whose tables are all in order. -/
inductive Node.IsSound : Node → Prop where
  | value {value : Toml} : value.HasDistinctKeys → IsSound (.value value)
  | table {origin : Origin} {members : Members} :
      IsOrdered members → (∀ member ∈ members, IsSound member.2) →
      IsSound (.table origin members)
  | tables {elements : List Members} :
      (∀ members ∈ elements, IsOrdered members) →
      (∀ members ∈ elements, ∀ member ∈ members, IsSound member.2) →
      IsSound (.tables elements)

/-- A table under construction that is in order, with all tables inside it. -/
structure AreSound (members : Members) : Prop where
  ordered : IsOrdered members
  each : ∀ member ∈ members, member.2.IsSound

/-! ## Changes -/

/-- A change of a member makes a sound one of a sound one, or of none. -/
def KeepsSound (change : Option Node → Option Node) : Prop :=
  ∀ before after, (∀ node ∈ before, node.IsSound) → change before = some after →
    after.IsSound

/-- A change of a table keeps it sound. -/
def KeepsTableSound (change : Members → Option Members) : Prop :=
  ∀ members changed, AreSound members → change members = some changed → AreSound changed

theorem areSound_nil : AreSound [] :=
  ⟨.nil, fun _ member => absurd member List.not_mem_nil⟩

theorem AreSound.table {origin : Origin} {members : Members} (sound : AreSound members) :
    (Node.table origin members).IsSound :=
  .table sound.ordered sound.each

theorem areSound_of_table {origin : Origin} {members : Members}
    (sound : (Node.table origin members).IsSound) : AreSound members := by
  cases sound with
  | table ordered each => exact ⟨ordered, each⟩

theorem isSound_tables {elements : List Members}
    (sound : ∀ members ∈ elements, AreSound members) : (Node.tables elements).IsSound :=
  .tables (fun members member => (sound members member).ordered)
    fun members member => (sound members member).each

theorem areSound_of_tables {elements : List Members} (sound : (Node.tables elements).IsSound) :
    ∀ members ∈ elements, AreSound members := by
  cases sound with
  | tables ordered each =>
      exact fun members member => ⟨ordered members member, each members member⟩

/-- What a changed table has, it had before, or the change made it of what was there. -/
theorem mem_of_alter {key : String} {change : Option Node → Option Node}
    {members changed : Members} (altered : alter key change members = some changed) :
    ∀ member ∈ changed, member ∈ members ∨ ∃ before, change before = some member.2 ∧
      ∀ node ∈ before, ∃ old ∈ members, old.2 = node := by
  induction members generalizing changed with
  | nil =>
      obtain ⟨node, made, rfl⟩ := Option.map_eq_some_iff.mp altered
      intro member isMember
      rw [List.mem_singleton.mp isMember]
      exact .inr ⟨none, made, by simp⟩
  | cons first rest ih =>
      obtain ⟨other, node⟩ := first
      unfold alter at altered
      split at altered
      · obtain ⟨added, made, rfl⟩ := Option.map_eq_some_iff.mp altered
        intro member isMember
        rcases List.mem_cons.mp isMember with rfl | isMember
        · exact .inr ⟨none, made, by simp⟩
        · exact .inl isMember
      · split at altered
        · obtain ⟨after, found, rfl⟩ := Option.map_eq_some_iff.mp altered
          intro member isMember
          rcases List.mem_cons.mp isMember with rfl | isMember
          · exact .inl List.mem_cons_self
          · rcases ih found member isMember with old | ⟨before, made, stood⟩
            · exact .inl (List.mem_cons_of_mem _ old)
            · refine .inr ⟨before, made, ?_⟩
              intro node isNode
              obtain ⟨old, isOld, same⟩ := stood node isNode
              exact ⟨old, List.mem_cons_of_mem _ isOld, same⟩
        · obtain ⟨replaced, made, rfl⟩ := Option.map_eq_some_iff.mp altered
          intro member isMember
          rcases List.mem_cons.mp isMember with rfl | isMember
          · exact .inr ⟨some node, made, by simp⟩
          · exact .inl (List.mem_cons_of_mem _ isMember)

theorem keepsTableSound_alter {change : Option Node → Option Node} (keeps : KeepsSound change)
    (key : String) : KeepsTableSound (alter key change) := by
  intro members changed sound altered
  refine ⟨isOrdered_alter sound.ordered altered, ?_⟩
  intro member isMember
  rcases mem_of_alter altered member isMember with old | ⟨before, made, stood⟩
  · exact sound.each member old
  · apply keeps before member.2 _ made
    intro node isNode
    obtain ⟨old, isOld, rfl⟩ := stood node isNode
    exact sound.each old isOld

theorem areSound_alterLast {change : Members → Option Members} (keeps : KeepsTableSound change)
    {elements changed : List Members} (sound : ∀ members ∈ elements, AreSound members)
    (altered : alterLast change elements = some changed) :
    ∀ members ∈ changed, AreSound members := by
  induction elements generalizing changed with
  | nil => contradiction
  | cons first rest ih =>
      obtain ⟨here, others⟩ := List.forall_mem_cons.mp sound
      cases rest with
      | nil =>
          obtain ⟨last, made, rfl⟩ := Option.map_eq_some_iff.mp altered
          exact List.forall_mem_singleton.mpr (keeps first last here made)
      | cons second rest =>
          obtain ⟨after, made, rfl⟩ := Option.map_eq_some_iff.mp altered
          exact List.forall_mem_cons.mpr ⟨here, ih others made⟩

theorem keepsSound_of_table {change : Members → Option Members} (keeps : KeepsTableSound change)
    {members : Members} {node : Node} {origin : Origin} (sound : AreSound members)
    (changed : (change members).map (.table origin) = some node) : node.IsSound := by
  obtain ⟨after, made, rfl⟩ := Option.map_eq_some_iff.mp changed
  exact (keeps members after sound made).table

theorem keepsSound_of_tables {change : Members → Option Members} (keeps : KeepsTableSound change)
    {elements : List Members} {node : Node} (sound : (Node.tables elements).IsSound)
    (changed : (alterLast change elements).map .tables = some node) : node.IsSound := by
  obtain ⟨after, made, rfl⟩ := Option.map_eq_some_iff.mp changed
  exact isSound_tables (areSound_alterLast keeps (areSound_of_tables sound) made)

/-! ## Paths -/

theorem keepsTableSound_follow {change : Option Node → Option Node} (keeps : KeepsSound change)
    (path : List String) : KeepsTableSound (follow change path) := by
  induction path with
  | nil =>
      intro members changed _ followed
      contradiction
  | cons key path ih =>
      cases path with
      | nil => exact keepsTableSound_alter keeps key
      | cons next path =>
          apply keepsTableSound_alter
          intro before after sound changed
          cases before with
          | none => exact keepsSound_of_table ih areSound_nil changed
          | some node =>
              have here := sound node rfl
              cases node with
              | value value => contradiction
              | table origin members =>
                  exact keepsSound_of_table ih (areSound_of_table here) changed
              | tables elements => exact keepsSound_of_tables ih here changed

theorem keepsTableSound_addValue {value : Toml} (distinct : value.HasDistinctKeys)
    (path : List String) : KeepsTableSound (addValue value path) := by
  induction path with
  | nil =>
      intro members changed _ added
      contradiction
  | cons key path ih =>
      cases path with
      | nil =>
          apply keepsTableSound_alter
          intro before after _ changed
          cases before with
          | none =>
              cases changed
              exact .value distinct
          | some node => contradiction
      | cons next path =>
          apply keepsTableSound_alter
          intro before after sound changed
          cases before with
          | none => exact keepsSound_of_table ih areSound_nil changed
          | some node =>
              have here := sound node rfl
              cases node with
              | value value => contradiction
              | table origin members =>
                  cases origin with
                  | header => contradiction
                  | passedThrough => exact keepsSound_of_table ih (areSound_of_table here) changed
                  | dottedKey => exact keepsSound_of_table ih (areSound_of_table here) changed
              | tables elements =>
                  dsimp only at changed
                  split at changed
                  · contradiction
                  · exact keepsSound_of_tables ih here changed

theorem keepsTableSound_openTable (path : List String) : KeepsTableSound (openTable path) := by
  apply keepsTableSound_follow
  intro before after sound opened
  dsimp only at opened
  split at opened
  · cases opened
    exact areSound_nil.table
  · cases opened
    exact (areSound_of_table (sound _ rfl)).table
  · contradiction

theorem keepsTableSound_openElement (path : List String) :
    KeepsTableSound (openElement path) := by
  apply keepsTableSound_follow
  intro before after sound opened
  dsimp only at opened
  split at opened
  · cases opened
    exact isSound_tables (List.forall_mem_singleton.mpr areSound_nil)
  · cases opened
    apply isSound_tables
    exact List.forall_mem_append.mpr
      ⟨areSound_of_tables (sound _ rfl), List.forall_mem_singleton.mpr areSound_nil⟩
  · contradiction

theorem keepsTableSound_addValueAt {value : Toml} (distinct : value.HasDistinctKeys)
    (header keys : List String) : KeepsTableSound (addValueAt header keys value) := by
  cases header with
  | nil => exact keepsTableSound_addValue distinct keys
  | cons first header =>
      apply keepsTableSound_follow
      intro before after sound added
      dsimp only at added
      split at added
      · exact keepsSound_of_table (keepsTableSound_addValue distinct keys)
          (areSound_of_table (sound _ rfl)) added
      · exact keepsSound_of_tables (keepsTableSound_addValue distinct keys) (sound _ rfl) added
      · contradiction

/-! ## Finished tables -/

theorem closeMembers_eq (members : Members) :
    closeMembers members = members.map fun member => (member.1, member.2.close) := by
  induction members with
  | nil => rfl
  | cons member members ih =>
      obtain ⟨key, node⟩ := member
      rw [closeMembers, ih]
      rfl

theorem closeElements_eq (elements : List Members) :
    closeElements elements = elements.map fun members => .table (closeMembers members) := by
  induction elements with
  | nil => rfl
  | cons members elements ih =>
      rw [closeElements, ih]
      rfl

/-- Keys in increasing order are distinct. -/
theorem nodup_of_isOrdered {members : Members} (ordered : IsOrdered members) :
    (members.map (·.1)).Nodup := by
  apply List.pairwise_map.mpr
  apply ordered.imp
  intro left right less same
  rw [same] at less
  exact absurd less (String.lt_irrefl _)

theorem hasDistinctKeys_closeMembers {members : Members} (ordered : IsOrdered members)
    (each : ∀ member ∈ members, member.2.close.HasDistinctKeys) :
    (Toml.table (closeMembers members)).HasDistinctKeys := by
  rw [closeMembers_eq]
  apply HasDistinctKeys.table
  · rw [List.map_map]
    exact nodup_of_isOrdered ordered
  · intro member isMember
    obtain ⟨original, isOriginal, rfl⟩ := List.mem_map.mp isMember
    exact each original isOriginal

theorem Node.IsSound.close {node : Node} (sound : node.IsSound) : node.close.HasDistinctKeys := by
  induction sound with
  | value distinct => exact distinct
  | table ordered _ ih => exact hasDistinctKeys_closeMembers ordered ih
  | tables ordered _ ih =>
      rw [Node.close, closeElements_eq]
      apply HasDistinctKeys.array
      intro item isItem
      obtain ⟨members, isMembers, rfl⟩ := List.mem_map.mp isItem
      exact hasDistinctKeys_closeMembers (ordered members isMembers) (ih members isMembers)

theorem AreSound.close {members : Members} (sound : AreSound members) :
    (Toml.table (closeMembers members)).HasDistinctKeys :=
  hasDistinctKeys_closeMembers sound.ordered fun member isMember =>
    (sound.each member isMember).close

/-! ## Scalars -/

/-- A reader that gives nothing but scalars. -/
def GivesScalar (read : Option Toml) : Prop :=
  ∀ value ∈ read, value.IsScalar

theorem givesScalar_none : GivesScalar none :=
  fun _ member => absurd member (by simp)

theorem givesScalar_some {value : Toml} (scalar : value.IsScalar) : GivesScalar (some value) := by
  intro other member
  rwa [← Option.mem_some_iff.mp member]

theorem givesScalar_bind {α : Type} (first : Option α) {next : α → Option Toml}
    (each : ∀ result, GivesScalar (next result)) : GivesScalar (first >>= next) := by
  cases first with
  | none => exact givesScalar_none
  | some result => exact each result

theorem givesScalar_or {first second : Option Toml} (here : GivesScalar first)
    (there : GivesScalar second) : GivesScalar (first.or second) := by
  cases first with
  | none => exact there
  | some value => exact here

theorem isScalar_ofMagnitude (negative : Bool) (magnitude : Nat) :
    (ofMagnitude negative magnitude).IsScalar := by
  unfold ofMagnitude
  split
  all_goals
    split
    all_goals trivial

theorem isScalar_ofDecimal (negative : Bool) (digits : Nat) (power : Int) :
    (ofDecimal negative digits power).IsScalar := by
  unfold ofDecimal
  split
  all_goals trivial

theorem givesScalar_decimalInteger? (negative : Bool) (text : List Char) :
    GivesScalar (decimalInteger? negative text) := by
  unfold decimalInteger?
  dsimp only
  split
  · exact givesScalar_none
  · apply givesScalar_some
    cases readDigits? (withoutUnderscores text) with
    | none => trivial
    | some magnitude => exact isScalar_ofMagnitude negative magnitude

theorem givesScalar_basedInteger? (text : List Char) : GivesScalar (basedInteger? text) := by
  have magnitudes (base : Nat) (digits : List Char) :
      GivesScalar (valueIn? base (withoutUnderscores digits) >>= fun magnitude =>
        if !isSeparated isHexadecimal false digits then none
        else if digits.isEmpty then some unrepresentable
        else some (ofMagnitude false magnitude)) := by
    apply givesScalar_bind
    intro magnitude
    split
    · exact givesScalar_none
    split
    · exact givesScalar_some trivial
    · exact givesScalar_some (isScalar_ofMagnitude false magnitude)
  unfold basedInteger?
  split
  · dsimp only
    split
    · exact magnitudes 16 _
    · exact magnitudes 8 _
    · exact magnitudes 2 _
    · exact givesScalar_none
  · exact givesScalar_none

theorem givesScalar_decimalFloat? (negative : Bool) (text : List Char) :
    GivesScalar (decimalFloat? negative text) := by
  have numbers (whole fraction : List Char) (powers : Option Int) :
      GivesScalar (powers >>= fun power =>
        if text.head? == some '0' && 1 < whole.length || !isSeparated isDigit false text then none
        else some (ofDecimal negative (digitsValue (whole ++ fraction))
          (power - fraction.length))) := by
    apply givesScalar_bind
    intro power
    split
    · exact givesScalar_none
    · exact givesScalar_some (isScalar_ofDecimal _ _ _)
  unfold decimalFloat?
  apply givesScalar_bind
  intro whole
  dsimp only
  split
  all_goals
    apply givesScalar_bind
    intro fraction
    split
    · exact numbers _ _ _
    split
    · exact numbers _ _ _
    · exact numbers _ _ _

theorem givesScalar_numberOrDatetime? (text : List Char) :
    GivesScalar (numberOrDatetime? text) := by
  unfold numberOrDatetime?
  dsimp only
  split
  · split
    · exact givesScalar_some trivial
    · exact givesScalar_none
  · split
    · exact givesScalar_decimalFloat? _ _
    · exact givesScalar_decimalInteger? _ _

theorem givesScalar_ofRun? (text : List Char) : GivesScalar (ofRun? text) := by
  unfold ofRun?
  apply givesScalar_or
  · unfold namedBoolean?
    split
    · exact givesScalar_some trivial
    split
    · exact givesScalar_some trivial
    · exact givesScalar_none
  apply givesScalar_or
  · unfold namedFloat?
    dsimp only
    split
    · exact givesScalar_some trivial
    split
    · exact givesScalar_some trivial
    · exact givesScalar_none
  apply givesScalar_or
  · exact givesScalar_basedInteger? text
  · exact givesScalar_numberOrDatetime? text

/-! ## Readers -/

/-- What is read with a given number of calls has no key twice. -/
structure ReadsDistinct (fuel : Nat) : Prop where
  value : ∀ {depth : Nat} {text rest : List Char} {value : Toml},
    readValue? fuel depth text = some (value, rest) → value.HasDistinctKeys
  items : ∀ {depth : Nat} {text rest : List Char} {items : List Toml},
    readItems? fuel depth text = some (items, rest) → ∀ item ∈ items, item.HasDistinctKeys
  members : ∀ {depth : Nat} {before after : Members} {text rest : List Char}, AreSound before →
    readMembers? fuel depth before text = some (after, rest) → AreSound after

namespace ReadsDistinct

variable {fuel depth : Nat} {text rest : List Char}

theorem zero : ReadsDistinct 0 where
  value read := by contradiction
  items read := by contradiction
  members _ read := by contradiction

theorem value_succ (reads : ReadsDistinct fuel) {value : Toml}
    (read : readValue? (fuel + 1) depth text = some (value, rest)) : value.HasDistinctKeys := by
  cases text with
  | nil => contradiction
  | cons character text =>
      rw [readValue?.eq_def] at read
      dsimp only at read
      split at read
      · simp only [Option.bind_eq_bind, Option.bind_eq_some_iff] at read
        obtain ⟨⟨string, after⟩, -, read⟩ := read
        cases read
        exact .scalar trivial
      split at read
      · cases depth with
        | zero => contradiction
        | succ depth =>
            simp only [Option.bind_eq_bind, Option.bind_eq_some_iff] at read
            obtain ⟨⟨items, after⟩, found, read⟩ := read
            cases read
            exact .array (reads.items found)
      split at read
      · cases depth with
        | zero => contradiction
        | succ depth =>
            simp only [Option.bind_eq_bind, Option.bind_eq_some_iff] at read
            obtain ⟨⟨members, after⟩, found, read⟩ := read
            cases read
            exact (reads.members areSound_nil found).close
      · simp only [Option.bind_eq_bind, Option.bind_eq_some_iff] at read
        obtain ⟨scalar, found, read⟩ := read
        cases read
        exact .scalar (givesScalar_ofRun? _ _ found)

theorem items_succ (reads : ReadsDistinct fuel) {items : List Toml}
    (read : readItems? (fuel + 1) depth text = some (items, rest)) :
    ∀ item ∈ items, item.HasDistinctKeys := by
  rw [readItems?.eq_def] at read
  split at read
  · contradiction
  · cases read
    exact fun _ member => absurd member List.not_mem_nil
  · rename_i equal _
    cases equal
    simp only [Option.bind_eq_bind, Option.bind_eq_some_iff] at read
    obtain ⟨⟨first, after⟩, here, read⟩ := read
    dsimp only at read
    split at read
    · obtain ⟨⟨others, later⟩, there, read⟩ := Option.bind_eq_some_iff.mp read
      cases read
      exact List.forall_mem_cons.mpr ⟨reads.value here, reads.items there⟩
    · cases read
      exact List.forall_mem_singleton.mpr (reads.value here)
    · contradiction

theorem members_succ (reads : ReadsDistinct fuel) {before after : Members}
    (sound : AreSound before)
    (read : readMembers? (fuel + 1) depth before text = some (after, rest)) :
    AreSound after := by
  unfold readMembers? at read
  split at read
  · cases read
    exact sound
  · simp only [Option.bind_eq_bind, Option.bind_eq_some_iff] at read
    obtain ⟨⟨keys, named⟩, -, ⟨value, tail⟩, here, members, added, read⟩ := read
    have longer := keepsTableSound_addValue (reads.value here) keys _ _ sound added
    dsimp only at read
    split at read
    · exact reads.members longer read
    · cases read
      exact longer
    · contradiction

end ReadsDistinct

theorem readsDistinct (fuel : Nat) : ReadsDistinct fuel := by
  induction fuel with
  | zero => exact .zero
  | succ fuel ih => exact ⟨ih.value_succ, ih.items_succ, ih.members_succ⟩

/-! ## Documents -/

theorem areSound_of_readStatement? {draft after : Draft} {text rest : List Char}
    (sound : AreSound draft.root) (read : readStatement? draft text = some (after, rest)) :
    AreSound after.root := by
  unfold readStatement? at read
  split at read
  · simp only [Option.bind_eq_bind, Option.bind_eq_some_iff] at read
    obtain ⟨⟨keys, named⟩, -, closed, -, root, opened, read⟩ := read
    cases read
    exact keepsTableSound_openElement keys _ _ sound opened
  · simp only [Option.bind_eq_bind, Option.bind_eq_some_iff] at read
    obtain ⟨⟨keys, named⟩, -, closed, -, root, opened, read⟩ := read
    cases read
    exact keepsTableSound_openTable keys _ _ sound opened
  · simp only [Option.bind_eq_bind, Option.bind_eq_some_iff] at read
    obtain ⟨⟨keys, named⟩, -, ⟨value, tail⟩, here, root, added, read⟩ := read
    cases read
    have distinct := (readsDistinct _).value here
    exact keepsTableSound_addValueAt distinct draft.header keys _ _ sound added

theorem areSound_of_readStatements? {fuel : Nat} {draft : Draft} {text : List Char}
    {members : Members} (sound : AreSound draft.root)
    (read : readStatements? fuel draft text = some members) : AreSound members := by
  induction fuel generalizing draft text with
  | zero => contradiction
  | succ fuel ih =>
      rw [readStatements?] at read
      split at read
      · cases read
        exact sound
      · simp only [Option.bind_eq_bind, Option.bind_eq_some_iff] at read
        obtain ⟨⟨after, rest⟩, here, read⟩ := read
        have next := areSound_of_readStatement? sound here
        dsimp only at read
        split at read
        · cases read
          exact next
        · obtain ⟨tail, -, read⟩ := Option.bind_eq_some_iff.mp read
          exact ih next read

/-- No table of a document has a key twice. -/
theorem hasDistinctKeys_of_parse? {text : List Char} {members : List (String × Toml)}
    (parsed : parse? text = some members) : (Toml.table members).HasDistinctKeys := by
  simp only [parse?, Option.bind_eq_bind, Option.bind_eq_some_iff] at parsed
  obtain ⟨finished, read, closed⟩ := parsed
  cases closed
  exact (areSound_of_readStatements? areSound_nil read).close

end IncludeGate.Toml
