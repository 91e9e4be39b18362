import IncludeGate.Config
import IncludeGate.Proofs.Sequence
import IncludeGate.Proofs.Toml.Order

/-!
# What the values of a document stand for

A string stands for a text, an array for a list of what its items stand for, and a table or an
array for an entry of `allowed`.  Each reader is shown to read what its relation says, and each
test of a table to ask that its members are known fields that can be read.  The relations ask
which members a table has and not where they stand, so that a value stands for the same
whatever order its keys have.
-/

namespace IncludeGate.Config

variable {α : Type}

/-- A string stands for its text. -/
def IsText (value : Toml) (text : String) : Prop :=
  value = .string text

/-- An array stands for what its items stand for, one by one. -/
def IsList (Is : Toml → α → Prop) (value : Toml) (results : List α) : Prop :=
  ∃ items, value = .array items ∧ List.Forall₂ Is items results

/-- An entry of `allowed` is a table with a scope and exceptions and nothing else, or an array
that begins with these two. -/
inductive IsEntry : Toml → AllowedEntry → Prop where
  | table {members : List (String × Toml)} {scopeValue exceptionsValue : Toml} {scope : String}
      {exceptions : List String} :
      (∀ member ∈ members, member.1 ∈ ["scope", "exceptions"]) →
      ("scope", scopeValue) ∈ members → IsText scopeValue scope →
      ("exceptions", exceptionsValue) ∈ members → IsList IsText exceptionsValue exceptions →
      IsEntry (.table members) ⟨scope, exceptions⟩
  | array {scopeValue exceptionsValue : Toml} {further : List Toml} {scope : String}
      {exceptions : List String} :
      IsText scopeValue scope → IsList IsText exceptionsValue exceptions →
      IsEntry (.array (scopeValue :: exceptionsValue :: further)) ⟨scope, exceptions⟩

/-- What members give under a name, if there is a member of that name. -/
inductive Gives (Is : Toml → α → Prop) (name : String) (members : List (String × Toml)) :
    Option α → Prop where
  | present {value : Toml} {result : α} :
      (name, value) ∈ members → Is value result → Gives Is name members (some result)
  | absent : (∀ member ∈ members, member.1 ≠ name) → Gives Is name members none

/-! ## Readers -/

/-- A reader reads what values stand for, in documents without double keys. -/
def Reads (decode : Toml → Decoded α) (Is : Toml → α → Prop) : Prop :=
  ∀ value, value.HasDistinctKeys → ∀ result, decode value = .ok result ↔ Is value result

theorem reads_asString : Reads asString IsText := by
  intro value _ text
  cases value with
  | string found => simp [asString, IsText]
  | _ => simp [asString, IsText]

theorem reads_asList {item : Toml → Decoded α} {Is : Toml → α → Prop} (reads : Reads item Is) :
    Reads (asList item) (IsList Is) := by
  intro value distinct results
  cases value with
  | array items =>
      have each : ∀ member ∈ items, ∀ result, item member = .ok result ↔ Is member result :=
        fun member isItem => reads member (distinct.of_mem_items member isItem)
      rw [asList, Sequence.mapM_eq_ok_iff, Sequence.forall₂_congr each]
      constructor
      · intro stand
        exact ⟨items, rfl, stand⟩
      · rintro ⟨_, equal, stand⟩
        cases equal
        exact stand
  | _ => simp [asList, IsList]

theorem reads_asStrings : Reads asStrings (IsList IsText) :=
  reads_asList reads_asString

section Members

variable {decode : Toml → Decoded α} {Is : Toml → α → Prop} {name key : String} {value : Toml}
  {members : List (String × Toml)}

/-- A field that may be missing is read as what the members give under its name. -/
theorem field?_eq_ok_iff (reads : Reads decode Is)
    (distinct : (Toml.table members).HasDistinctKeys) {given : Option α} :
    field? name decode members = .ok given ↔ Gives Is name members given := by
  rw [field?]
  cases found : members.find? (·.1 = name) with
  | none =>
      have missing : ∀ member ∈ members, member.1 ≠ name := by
        simpa using List.find?_eq_none.mp found
      constructor
      · intro done
        cases done
        exact .absent missing
      · intro gives
        cases gives with
        | present member _ => exact absurd rfl (missing _ member)
        | absent _ => rfl
  | some member =>
      obtain ⟨key, value⟩ := member
      have same : key = name := by simpa using List.find?_some found
      have member := List.mem_of_find?_eq_some found
      subst same
      have reads_value := reads value (distinct.of_mem_members _ member)
      dsimp only
      rw [Sequence.map_eq_ok_iff]
      constructor
      · rintro ⟨result, read, rfl⟩
        exact .present member ((reads_value result).mp read)
      · intro gives
        cases gives with
        | present there stands =>
            rw [distinct.unique there member] at stands
            exact ⟨_, (reads_value _).mpr stands, rfl⟩
        | absent missing => exact absurd rfl (missing _ member)

theorem field_eq_ok_iff (reads : Reads decode Is)
    (distinct : (Toml.table members).HasDistinctKeys) {result : α} :
    field name decode members = .ok result ↔ Gives Is name members (some result) := by
  rw [field, Sequence.bind_eq_ok_iff]
  constructor
  · rintro ⟨given, read, done⟩
    cases given with
    | none => contradiction
    | some found =>
        cases done
        exact (field?_eq_ok_iff reads distinct).mp read
  · intro gives
    exact ⟨some result, (field?_eq_ok_iff reads distinct).mpr gives, rfl⟩

/-! ## Tests of members -/

/-- A member is one of some fields and passes its test. -/
def Passes (known : List Field) (key : String) (value : Toml) : Prop :=
  ∃ field, known.find? (·.name = key) = some field ∧ field.check value = .ok ()

theorem passes_iff {known : List Field} (distinct : (known.map (·.name)).Nodup) :
    Passes known key value ↔
      ∃ field ∈ known, field.name = key ∧ field.check value = .ok () := by
  constructor
  · rintro ⟨field, found, passed⟩
    have named : field.name = key := by simpa using List.find?_some found
    exact ⟨field, List.mem_of_find?_eq_some found, named, passed⟩
  · rintro ⟨field, member, rfl, passed⟩
    cases found : known.find? (·.name = field.name) with
    | none =>
        have missing := List.find?_eq_none.mp found field member
        simp at missing
    | some other =>
        have named : other.name = field.name := by simpa using List.find?_some found
        have same := List.inj_on_of_nodup_map distinct (List.mem_of_find?_eq_some found) member
          named
        exact ⟨field, same ▸ found, passed⟩

theorem check_of_eq_ok_iff :
    (Field.of name decode).check value = .ok () ↔ ∃ result, decode value = .ok result := by
  rw [Field.of, Sequence.map_eq_ok_iff]
  simp

theorem checkMembers_eq_ok_iff {known : List Field} :
    checkMembers known members = .ok () ↔
      ∀ member ∈ members, Passes known member.1 member.2 := by
  induction members with
  | nil => simp [checkMembers]
  | cons member members ih =>
      obtain ⟨key, value⟩ := member
      rw [List.forall_mem_cons, ← ih, checkMembers]
      cases found : known.find? (·.name = key) with
      | none => simp [Passes, found]
      | some field =>
          dsimp only
          rw [Sequence.bind_eq_ok_iff]
          constructor
          · rintro ⟨_, passed, others⟩
            exact ⟨⟨field, found, passed⟩, others⟩
          · rintro ⟨⟨_, again, passed⟩, others⟩
            cases found.symm.trans again
            exact ⟨(), passed, others⟩

/-! ## Entries -/

theorem passes_entryFields_iff (distinct : value.HasDistinctKeys) :
    Passes entryFields key value ↔
      key = "scope" ∧ (∃ scope, IsText value scope) ∨
        key = "exceptions" ∧ ∃ exceptions, IsList IsText value exceptions := by
  rw [passes_iff (by decide)]
  simp only [entryFields, List.mem_cons, List.not_mem_nil, or_false, exists_eq_or_imp,
    exists_eq_left, check_of_eq_ok_iff, reads_asString value distinct,
    reads_asStrings value distinct]
  simp only [Field.of, eq_comm]

theorem asEntry_table_eq_ok_iff (distinct : (Toml.table members).HasDistinctKeys)
    {entry : AllowedEntry} :
    asEntry (.table members) = .ok entry ↔ IsEntry (.table members) entry := by
  have each := distinct.of_mem_members
  obtain ⟨scope, exceptions⟩ := entry
  simp only [asEntry, Sequence.bind_eq_ok_iff, field_eq_ok_iff reads_asString distinct,
    field_eq_ok_iff reads_asStrings distinct]
  constructor
  · rintro ⟨_, passed, _, here, _, there, done⟩
    cases done
    cases here with
    | present scopeMember isScope =>
      cases there with
      | present exceptionsMember areExceptions =>
        apply IsEntry.table _ scopeMember isScope exceptionsMember areExceptions
        intro member isMember
        have passes := checkMembers_eq_ok_iff.mp passed member isMember
        rw [passes_entryFields_iff (each member isMember)] at passes
        rcases passes with ⟨named, -⟩ | ⟨named, -⟩
        · simp [named]
        · simp [named]
  · intro isEntry
    cases isEntry with
    | table known scopeMember isScope exceptionsMember areExceptions =>
      refine ⟨(), checkMembers_eq_ok_iff.mpr ?_, scope, .present scopeMember isScope, exceptions,
        .present exceptionsMember areExceptions, rfl⟩
      rintro ⟨key, value⟩ isMember
      rw [passes_entryFields_iff (each _ isMember)]
      rcases List.mem_pair.mp (known _ isMember) with named | named
      · cases named
        rw [distinct.unique isMember scopeMember]
        exact .inl ⟨rfl, scope, isScope⟩
      · cases named
        rw [distinct.unique isMember exceptionsMember]
        exact .inr ⟨rfl, exceptions, areExceptions⟩

theorem asEntry_array_eq_ok_iff {items : List Toml}
    (distinct : (Toml.array items).HasDistinctKeys) {entry : AllowedEntry} :
    asEntry (.array items) = .ok entry ↔ IsEntry (.array items) entry := by
  obtain ⟨scope, exceptions⟩ := entry
  match items, distinct with
  | [], _ =>
      constructor
      · intro read
        contradiction
      · intro isEntry
        contradiction
  | [scopeValue], _ =>
      simp only [asEntry, Sequence.bind_eq_ok_iff]
      constructor
      · rintro ⟨_, _, failed⟩
        contradiction
      · intro isEntry
        contradiction
  | scopeValue :: exceptionsValue :: further, distinct =>
      have scopes := reads_asString scopeValue (distinct.of_mem_items _ (by simp))
      have lists := reads_asStrings exceptionsValue (distinct.of_mem_items _ (by simp))
      simp only [asEntry, Sequence.bind_eq_ok_iff, scopes, lists]
      constructor
      · rintro ⟨_, isScope, _, areExceptions, done⟩
        cases done
        exact .array isScope areExceptions
      · intro isEntry
        cases isEntry with
        | array isScope areExceptions => exact ⟨scope, isScope, exceptions, areExceptions, rfl⟩

theorem reads_asEntry : Reads asEntry IsEntry := by
  intro value distinct entry
  cases value with
  | table members => exact asEntry_table_eq_ok_iff distinct
  | array items => exact asEntry_array_eq_ok_iff distinct
  | _ =>
      constructor
      · intro read
        contradiction
      · intro isEntry
        contradiction

/-! ## Order of keys -/

/-- A value stands for the same in whatever order its keys are. -/
def IgnoresOrder (Is : Toml → α → Prop) : Prop :=
  ∀ value other, Toml.Reorders value other → ∀ result, Is value result → Is other result

theorem ignoresOrder_isText : IgnoresOrder IsText := by
  intro value other reorders text isText
  subst isText
  cases reorders with
  | same => rfl

theorem ignoresOrder_isList (ignores : IgnoresOrder Is) : IgnoresOrder (IsList Is) := by
  rintro _ value reorders results ⟨items, rfl, stand⟩
  obtain ⟨others, rfl, each⟩ := reorders.exists_array
  refine ⟨others, rfl, ?_⟩
  clear reorders
  induction stand generalizing others with
  | nil =>
      cases each with
      | nil => exact .nil
  | cons here _ ih =>
      cases each with
      | cons first rest => exact .cons (ignores _ _ first _ here) (ih _ rest)

theorem ignoresOrder_isEntry : IgnoresOrder IsEntry := by
  intro _ value reorders entry isEntry
  cases isEntry with
  | table known scopeMember isScope exceptionsMember areExceptions =>
      obtain ⟨reordered, rfl⟩ := reorders.exists_table
      obtain ⟨scopeValue, scopeThere, sameScope⟩ := reorders.exists_of_mem scopeMember
      obtain ⟨exceptionsValue, exceptionsThere, sameExceptions⟩ :=
        reorders.exists_of_mem exceptionsMember
      refine .table ?_ scopeThere (ignoresOrder_isText _ _ sameScope _ isScope) exceptionsThere
        (ignoresOrder_isList ignoresOrder_isText _ _ sameExceptions _ areExceptions)
      intro member there
      obtain ⟨value, here, -⟩ := reorders.symm.exists_of_mem there
      exact known (member.1, value) here
  | array isScope areExceptions =>
      obtain ⟨others, rfl, each⟩ := reorders.exists_array
      cases each with
      | cons sameScope rest =>
        cases rest with
        | cons sameExceptions _ =>
          exact .array (ignoresOrder_isText _ _ sameScope _ isScope)
            (ignoresOrder_isList ignoresOrder_isText _ _ sameExceptions _ areExceptions)

section Reordered

variable {reordered : List (String × Toml)}

theorem gives_of_reorders (ignores : IgnoresOrder Is)
    (reorders : (Toml.table members).Reorders (.table reordered)) {given : Option α}
    (gives : Gives Is name members given) : Gives Is name reordered given := by
  cases gives with
  | present member stands =>
      obtain ⟨other, there, same⟩ := reorders.exists_of_mem member
      exact .present there (ignores _ _ same _ stands)
  | absent missing =>
      apply Gives.absent
      intro member there
      obtain ⟨value, here, -⟩ := reorders.symm.exists_of_mem there
      exact missing (member.1, value) here

end Reordered

theorem exists_gives (each : ∀ value, (name, value) ∈ members → ∃ result, Is value result) :
    ∃ given, Gives Is name members given := by
  by_cases there : ∃ value, (name, value) ∈ members
  · obtain ⟨value, member⟩ := there
    obtain ⟨result, stands⟩ := each value member
    exact ⟨some result, .present member stands⟩
  · refine ⟨none, .absent ?_⟩
    rintro ⟨key, value⟩ member rfl
    exact there ⟨value, member⟩

end Members

end IncludeGate.Config
