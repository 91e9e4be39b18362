import IncludeGate.Json.Decode
import IncludeGate.Proofs.Json.Writing
import IncludeGate.Proofs.Sequence
import Mathlib.Data.List.Nodup

/-!
# Documents that say more

A document extends another one if its records have their members in any order and may have
further members, under keys that name no field.  Which objects are records, and of which
fields, is said by a shape.

A decoder tolerates extension if it cannot tell a document from one that it extends.
Decoders without parts do, as there is nothing to extend; lists and optional values inherit
it.  A record inherits it from its fields: of the members with the name of a field, the
documents have the same ones up to extension, and other members are not looked at.
-/

namespace IncludeGate.Json

variable {α β : Type}

/-! ## Extension -/

/-- Where a document may be extended. -/
inductive Shape where
  /-- A value without records in it. -/
  | fixed
  | list (item : Shape)
  | record (fields : List (String × Shape))

/-- The second document says what the first one says, and perhaps more. -/
inductive Extends : Shape → Json → Json → Prop where
  | same (shape : Shape) (value : Json) : Extends shape value value
  | list {item : Shape} {items others : List Json} :
      items.length = others.length →
      (∀ pair ∈ items.zip others, Extends item pair.1 pair.2) →
      Extends (.list item) (array items) (array others)
  /-- The members are kept under their keys, with extended values; others are added, and all
  of them are put into any order. -/
  | record {fields : List (String × Shape)} {members kept added document : List (String × Json)} :
      kept.map (·.1) = members.map (·.1) →
      (∀ pair ∈ members.zip kept, ∀ shape, (pair.1.1, shape) ∈ fields →
        Extends shape pair.1.2 pair.2.2) →
      (∀ member ∈ added, member.1 ∉ fields.map (·.1)) →
      document.Perm (kept ++ added) →
      Extends (.record fields) (object members) (object document)

/-- What a decoder makes of a document, it makes of every extension. -/
def Tolerates (shape : Shape) (decode : Json → Decoded α) : Prop :=
  ∀ value document result, value.IsPlain → Extends shape value document →
    decode value = .ok result → decode document = .ok result

/-! ## Values without members -/

theorem tolerates_fixed (decode : Json → Decoded α) : Tolerates .fixed decode := by
  intro value document result _ extended decoded
  cases extended
  exact decoded

theorem mapM_ok_of_zip {item : Json → Decoded α} {items others : List Json} {results : List α}
    (long : items.length = others.length)
    (each : ∀ pair ∈ items.zip others, ∀ result, item pair.1 = .ok result →
      item pair.2 = .ok result)
    (decoded : items.mapM item = .ok results) : others.mapM item = .ok results := by
  induction items generalizing others results with
  | nil => rwa [List.eq_nil_of_length_eq_zero long.symm]
  | cons first items ih =>
      cases others with
      | nil => contradiction
      | cons other others =>
          rw [List.zip_cons_cons, List.forall_mem_cons] at each
          rw [List.mapM_cons] at decoded ⊢
          cases here : item first with
          | error => simp [here, bind, Except.bind] at decoded
          | ok result =>
              cases rest : items.mapM item with
              | error => simp [here, rest, bind, Except.bind] at decoded
              | ok later =>
                  rw [here, rest] at decoded
                  rw [each.1 _ here, ih (Nat.succ.inj long) each.2 rest]
                  exact decoded

theorem tolerates_asList {shape : Shape} {item : Json → Decoded α}
    (tolerates : Tolerates shape item) : Tolerates (.list shape) (asList item) := by
  intro value document results plain extended decoded
  cases extended with
  | same => exact decoded
  | list long each =>
      cases plain with
      | array plainItems =>
          refine mapM_ok_of_zip long (fun pair member result here => ?_) decoded
          exact tolerates _ _ _ (plainItems _ (List.of_mem_zip member).1) (each pair member) here

@[simp] theorem ok_map (value : α) (change : α → β) :
    (.ok value : Decoded α).map change = .ok (change value) := rfl

@[simp] theorem ok_bind (value : α) (next : α → Decoded β) :
    (.ok value : Decoded α) >>= next = next value := rfl

theorem Tolerates.map {shape : Shape} {decode : Json → Decoded α}
    (tolerates : Tolerates shape decode) (change : α → β) :
    Tolerates shape fun value => (decode value).map change := by
  intro value document result plain extended decoded
  obtain ⟨found, here, changed⟩ := Sequence.map_eq_ok_iff.mp decoded
  exact Sequence.map_eq_ok_iff.mpr ⟨found, tolerates _ _ _ plain extended here, changed⟩

theorem tolerates_asOption {shape : Shape} {decode : Json → Decoded α}
    (tolerates : Tolerates shape decode) : Tolerates shape (asOption decode) := by
  intro value document result plain extended decoded
  cases extended with
  | same => exact decoded
  | list long each => exact tolerates.map some _ _ _ plain (.list long each) decoded
  | record keys each foreign order =>
      exact tolerates.map some _ _ _ plain (.record keys each foreign order) decoded

/-! ## Members -/

/-- The value under a key, where no other value is under it. -/
theorem member?_eq_some_iff {name : String} {members : List (String × Json)}
    (unique : ∀ value other, (name, value) ∈ members → (name, other) ∈ members → value = other)
    {value : Json} : member? name members = some value ↔ (name, value) ∈ members := by
  constructor
  · intro found
    obtain ⟨⟨key, other⟩, here, rfl⟩ := Option.map_eq_some_iff.mp found
    have key_eq : key = name := by simpa using List.find?_some here
    exact key_eq ▸ List.mem_of_find?_eq_some here
  · intro member
    cases found : members.find? (·.1 = name) with
    | none =>
        have other := List.find?_eq_none.mp found _ member
        simp at other
    | some pair =>
        obtain ⟨key, other⟩ := pair
        have key_eq : key = name := by simpa using List.find?_some found
        subst key_eq
        rw [member?, found, Option.map_some, unique _ _ member (List.mem_of_find?_eq_some found)]

theorem unique_of_nodup {members : List (String × Json)} (distinct : (members.map (·.1)).Nodup)
    {name : String} {value other : Json} (here : (name, value) ∈ members)
    (there : (name, other) ∈ members) : value = other :=
  congrArg Prod.snd (List.inj_on_of_nodup_map distinct here there rfl)

/-- Members whose values are extended under the same keys. -/
theorem rel_member?_of_zip {relation : Json → Json → Prop} {name : String}
    {members kept : List (String × Json)} (keys : kept.map (·.1) = members.map (·.1))
    (each : ∀ pair ∈ members.zip kept, pair.1.1 = name → relation pair.1.2 pair.2.2) :
    Option.Rel relation (member? name members) (member? name kept) := by
  induction members generalizing kept with
  | nil =>
      rw [List.map_eq_nil_iff.mp keys]
      exact .none
  | cons first members ih =>
      cases kept with
      | nil => contradiction
      | cons other kept =>
          obtain ⟨key, keys⟩ := List.cons.inj keys
          rw [List.zip_cons_cons, List.forall_mem_cons] at each
          by_cases here : first.1 = name
          · simpa [member?, here, key] using each.1 here
          · simpa [member?, here, key] using ih keys each.2

theorem exists_zip_of_mem {members kept : List (String × Json)}
    (keys : kept.map (·.1) = members.map (·.1)) {member : String × Json}
    (stays : member ∈ kept) :
    ∃ original, original.1 = member.1 ∧ (original, member) ∈ members.zip kept := by
  induction members generalizing kept with
  | nil =>
      rw [List.map_eq_nil_iff.mp keys] at stays
      contradiction
  | cons first members ih =>
      cases kept with
      | nil => contradiction
      | cons other kept =>
          obtain ⟨key, keys⟩ := List.cons.inj keys
          rcases List.mem_cons.mp stays with rfl | stays
          · exact ⟨first, key.symm, List.mem_cons_self⟩
          · obtain ⟨original, same, paired⟩ := ih keys stays
            exact ⟨original, same, List.mem_cons_of_mem _ paired⟩

/-! ## Fields -/

/-- Documents that have the same values of the fields, up to extension. -/
def Carries (fields : List (String × Shape)) (members document : List (String × Json)) : Prop :=
  ∀ name shape, (name, shape) ∈ fields →
    Option.Rel (Extends shape) (member? name members) (member? name document)

/-- What is made of the members of a record is made of extended ones. -/
def Respects (fields : List (String × Shape)) (body : List (String × Json) → Decoded α) : Prop :=
  ∀ members document result, (∀ member ∈ members, member.2.IsPlain) →
    Carries fields members document → body members = .ok result → body document = .ok result

section Record

variable {fields : List (String × Shape)} {name : String} {shape : Shape}

theorem isPlain_of_member? {members : List (String × Json)}
    (plain : ∀ member ∈ members, member.2.IsPlain) {value : Json}
    (found : member? name members = some value) : value.IsPlain := by
  obtain ⟨member, here, rfl⟩ := Option.map_eq_some_iff.mp found
  exact plain member (List.mem_of_find?_eq_some here)

theorem respects_lookup (known : (name, shape) ∈ fields) {decode : Json → Decoded α}
    (tolerates : Tolerates shape decode) (fallback : Decoded α) :
    Respects fields fun members =>
      match member? name members with
      | some value => decode value
      | none => fallback := by
  intro members document result plain carries decoded
  have related := carries name shape known
  cases here : member? name members with
  | none =>
      cases there : member? name document with
      | none => simpa only [here, there] using decoded
      | some other => simp [here, there] at related
  | some value =>
      cases there : member? name document with
      | none => simp [here, there] at related
      | some other =>
          rw [here, there, Option.rel_some_some] at related
          simp only [here, there] at decoded ⊢
          exact tolerates _ _ _ (isPlain_of_member? plain here) related decoded

theorem respects_field (known : (name, shape) ∈ fields) {decode : Json → Decoded α}
    (tolerates : Tolerates shape decode) : Respects fields (field name decode) :=
  respects_lookup known tolerates (.error (.missingField name))

theorem respects_fieldD (known : (name, shape) ∈ fields) (default : α)
    {decode : Json → Decoded α} (tolerates : Tolerates shape decode) :
    Respects fields (fieldD name default decode) :=
  respects_lookup known tolerates (.ok default)

theorem respects_pure (result : α) : Respects fields fun _ => pure result :=
  fun _ _ _ _ _ decoded => decoded

theorem respects_bind {first : List (String × Json) → Decoded α}
    {next : α → List (String × Json) → Decoded β} (here : Respects fields first)
    (later : ∀ value, Respects fields (next value)) :
    Respects fields fun members => first members >>= fun value => next value members := by
  intro members document result plain carries decoded
  obtain ⟨value, found, rest⟩ := Sequence.bind_eq_ok_iff.mp decoded
  exact Sequence.bind_eq_ok_iff.mpr ⟨value, here _ _ _ plain carries found,
    later value _ _ _ plain carries rest⟩

end Record

/-! ## Records -/

/-- The members of a record pass if each of them passes the test of its field. -/
theorem checkMembers_ok_iff {known : List Field} {members : List (String × Json)} :
    checkMembers known members = .ok () ↔
      ∀ member ∈ members, ∀ field, known.find? (·.name = member.1) = some field →
        field.check member.2 = .ok () := by
  induction members with
  | nil => simp [checkMembers]
  | cons first members ih =>
      obtain ⟨key, value⟩ := first
      rw [List.forall_mem_cons, checkMembers, ← ih]
      cases found : known.find? (·.name = key) with
      | none => simp
      | some field =>
          have unit : (∃ passed, field.check value = .ok passed) ↔ field.check value = .ok () :=
            ⟨fun ⟨_, passed⟩ => passed, fun passed => ⟨(), passed⟩⟩
          simp [Sequence.bind_eq_ok_iff, unit]

/-- A record is read from an object whose members pass. -/
theorem asRecord_bind_ok_iff {known : List Field} {expected : String} {required : Nat}
    {members : List (String × Json)} {body : List (String × Json) → Decoded α} {result : α} :
    asRecord expected known required (object members) >>= body = .ok result ↔
      checkMembers known members = .ok () ∧ body members = .ok result := by
  cases checked : checkMembers known members <;> simp [asRecord, checked, bind, Except.bind]

/-- The tests of a decoder are those of the fields, and they tolerate extension. -/
def TestsOf (fields : List (String × Shape)) (known : List Field) : Prop :=
  ∀ field ∈ known, ∃ shape, (field.name, shape) ∈ fields ∧ Tolerates shape field.check

theorem testsOf_nil (fields : List (String × Shape)) : TestsOf fields [] := nofun

theorem testsOf_cons {fields : List (String × Shape)} {known : List Field} {name : String}
    {shape : Shape} {decode : Json → Decoded α} (listed : (name, shape) ∈ fields)
    (tolerates : Tolerates shape decode) (others : TestsOf fields known) :
    TestsOf fields (.of name decode :: known) :=
  List.forall_mem_cons.mpr ⟨⟨shape, listed, tolerates.map _⟩, others⟩

section Extended

variable {fields : List (String × Shape)} {members kept added document : List (String × Json)}
  (keys : kept.map (·.1) = members.map (·.1))
  (each : ∀ pair ∈ members.zip kept, ∀ shape, (pair.1.1, shape) ∈ fields →
    Extends shape pair.1.2 pair.2.2)
  (foreign : ∀ member ∈ added, member.1 ∉ fields.map (·.1))
  (order : document.Perm (kept ++ added))

include keys each foreign order

theorem carries_of_perm (distinct : (members.map (·.1)).Nodup) :
    Carries fields members document := by
  intro name shape known
  have named : name ∈ fields.map (·.1) := List.mem_map_of_mem known
  have keptUnique : ∀ value other, (name, value) ∈ kept → (name, other) ∈ kept →
      value = other := fun _ _ => unique_of_nodup (keys ▸ distinct)
  -- Under the name of a field, the document has what was kept.
  have onlyKept : ∀ value, (name, value) ∈ document ↔ (name, value) ∈ kept := by
    intro value
    rw [order.mem_iff, List.mem_append, or_iff_left_iff_imp]
    intro other
    exact absurd named (foreign _ other)
  have unique : ∀ value other, (name, value) ∈ document → (name, other) ∈ document →
      value = other := by
    intro value other here there
    exact keptUnique value other ((onlyKept value).mp here) ((onlyKept other).mp there)
  have equal : member? name document = member? name kept := by
    ext value
    rw [member?_eq_some_iff unique, member?_eq_some_iff keptUnique, onlyKept]
  rw [equal]
  exact rel_member?_of_zip keys fun pair member here => each pair member shape (here ▸ known)

theorem checkMembers_of_perm {known : List Field} (tests : TestsOf fields known)
    (plain : ∀ member ∈ members, member.2.IsPlain)
    (passed : checkMembers known members = .ok ()) : checkMembers known document = .ok () := by
  rw [checkMembers_ok_iff] at passed ⊢
  intro member present field found
  have name_eq : field.name = member.1 := by simpa using List.find?_some found
  obtain ⟨shape, listed, tolerates⟩ := tests field (List.mem_of_find?_eq_some found)
  rw [name_eq] at listed
  rcases List.mem_append.mp (order.mem_iff.mp present) with stays | new
  · obtain ⟨original, key, paired⟩ := exists_zip_of_mem keys stays
    rw [← key] at listed found
    have here := (List.of_mem_zip paired).1
    exact tolerates _ _ _ (plain original here) (each _ paired shape listed)
      (passed original here field found)
  · exact absurd (List.mem_map_of_mem listed) (foreign member new)

end Extended

/-- A record tolerates extension if its tests do and if its fields are all it asks for. -/
theorem tolerates_record {fields : List (String × Shape)} {known : List Field}
    {expected : String} {required : Nat} {body : List (String × Json) → Decoded α}
    (tests : TestsOf fields known) (respects : Respects fields body) :
    Tolerates (.record fields) fun value => asRecord expected known required value >>= body := by
  intro value document result plain extended decoded
  cases extended with
  | same => exact decoded
  | @record _ members kept added document keys each foreign order =>
      cases plain with
      | object distinct plainMembers =>
          obtain ⟨passed, read⟩ := asRecord_bind_ok_iff.mp decoded
          have passes := checkMembers_of_perm keys each foreign order tests plainMembers passed
          have carries := carries_of_perm keys each foreign order distinct
          exact asRecord_bind_ok_iff.mpr ⟨passes, respects _ _ _ plainMembers carries read⟩

/-! ## Values read back -/

/-- What is written is plain, it is read back, and so is every extension of it. -/
structure Stable (shape : Shape) (encode : α → Json) (decode : Json → Decoded α) : Prop where
  plain (value : α) : (encode value).IsPlain
  readBack (value : α) : decode (encode value) = .ok value
  tolerates : Tolerates shape decode

/-- A value is read from every document that extends what was written for it. -/
theorem Stable.decode_of_extends {shape : Shape} {encode : α → Json} {decode : Json → Decoded α}
    (stable : Stable shape encode decode) {value : α} {document : Json}
    (extended : Extends shape (encode value) document) : decode document = .ok value :=
  stable.tolerates _ _ _ (stable.plain value) extended (stable.readBack value)

theorem Stable.asOption_encode {shape : Shape} {encode : α → Json} {decode : Json → Decoded α}
    (stable : Stable shape encode decode) {value : α} (present : encode value ≠ null) :
    asOption decode (encode value) = .ok (some value) := by
  have read := stable.readBack value
  cases written : encode value with
  | null => contradiction
  | _ =>
      rw [written] at read
      rw [asOption, read, ok_map]
      nofun

theorem stable_string : Stable .fixed string asString where
  plain := .string
  readBack _ := rfl
  tolerates := tolerates_fixed _

theorem stable_uInt32 : Stable .fixed (fun value : UInt32 => integer value.toNat) asUInt32 where
  plain value := by
    have small := value.toNat_lt
    exact .integer ⟨by omega, Int.ofNat_lt.mpr (Nat.lt_trans small (by decide))⟩
  readBack value := by
    have inside : (0 : Int) ≤ value.toNat ∧ (value.toNat : Int) < UInt32.size :=
      ⟨Int.natCast_nonneg _, Int.ofNat_lt.mpr value.toNat_lt⟩
    rw [asUInt32, if_pos inside, Int.toNat_natCast, UInt32.ofNat_toNat]
  tolerates := tolerates_fixed _

theorem Stable.list {shape : Shape} {encode : α → Json} {decode : Json → Decoded α}
    (stable : Stable shape encode decode) :
    Stable (.list shape) (fun values => array (values.map encode)) (asList decode) where
  plain values := by
    refine .array fun item member => ?_
    obtain ⟨value, -, rfl⟩ := List.mem_map.mp member
    exact stable.plain value
  readBack values := by
    induction values with
    | nil => rfl
    | cons first values ih =>
        rw [asList] at ih ⊢
        rw [List.map_cons, List.mapM_cons, stable.readBack, ih]
        rfl
  tolerates := tolerates_asList stable.tolerates

end IncludeGate.Json
