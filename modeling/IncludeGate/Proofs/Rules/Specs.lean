import IncludeGate.Proofs.Text.Written
import IncludeGate.Rules

/-!
# Scopes written on the command line

A scope and its exceptions are written as one text, with a colon before each exception.  The
text is cut at its colons when it is read, and joining the pieces gives it back; so a text with
a colon is written in one way only, and what is read from it depends on the piece before the
first colon and on which pieces come after it, but neither on their order nor on how often
each of them comes.
-/

namespace IncludeGate.AllowScope

open Text

/-- A text is a scope and at least one exception, with colons between them and no others. -/
structure IsWrittenAs (scope : String) (fields : List String) (spec : String) : Prop where
  filled : fields ≠ []
  plainScope : ':' ∉ scope.toList
  plainFields : ∀ field ∈ fields, ':' ∉ field.toList
  joined : spec.toList = join ':' (scope.toList :: fields.map String.toList)

variable {scope spec : String} {fields : List String} {parsed : AllowScope}

/-- A text that is written from a scope and exceptions is read as these. -/
theorem IsWrittenAs.parse?_eq (written : IsWrittenAs scope fields spec) :
    parse? spec = some ⟨scope, .ofList fields⟩ := by
  have plain : ∀ piece ∈ scope.toList :: fields.map String.toList, ':' ∉ piece := by
    intro piece member
    rcases List.mem_cons.mp member with rfl | member
    · exact written.plainScope
    · obtain ⟨field, isField, rfl⟩ := List.mem_map.mp member
      exact written.plainFields field isField
  have cut := pieces_join (List.cons_ne_nil _ _) plain
  rw [← written.joined] at cut
  rw [parse?, cut]
  cases fields with
  | nil => exact absurd rfl written.filled
  | cons first rest => simp [Function.comp_def]

/-- What stands before the first colon is the scope. -/
theorem IsWrittenAs.takeWhile_eq (written : IsWrittenAs scope fields spec) :
    spec.toList.takeWhile (· ≠ ':') = scope.toList := by
  have noColon : ∀ character ∈ scope.toList, decide (character ≠ ':') = true := by
    intro character member
    exact decide_eq_true fun same => written.plainScope (same ▸ member)
  cases fields with
  | nil => exact absurd rfl written.filled
  | cons first rest =>
      rw [written.joined, List.map_cons, join, List.takeWhile_append_of_pos noColon]
      simp

theorem IsWrittenAs.colon_mem (written : IsWrittenAs scope fields spec) :
    ':' ∈ spec.toList := by
  cases fields with
  | nil => exact absurd rfl written.filled
  | cons first rest =>
      rw [written.joined, List.map_cons, join]
      exact List.mem_append_right _ List.mem_cons_self

theorem colon_not_mem_of_mem_pieces {text piece : List Char}
    (member : piece ∈ pieces (· == ':') text) : ':' ∉ piece := by
  intro inside
  exact absurd (not_separator_of_mem_pieces member inside) (by decide)

/-- A text of two or more pieces is written from them. -/
theorem isWrittenAs_of_pieces {front first : List Char} {rest : List (List Char)}
    (cut : pieces (· == ':') spec.toList = front :: first :: rest) :
    IsWrittenAs (String.ofList front) ((first :: rest).map String.ofList) spec where
  filled := by simp
  plainScope := by
    rw [String.toList_ofList]
    apply colon_not_mem_of_mem_pieces
    rw [cut]
    exact List.mem_cons_self
  plainFields := by
    intro field member
    obtain ⟨piece, isPiece, rfl⟩ := List.mem_map.mp member
    rw [String.toList_ofList]
    apply colon_not_mem_of_mem_pieces
    rw [cut]
    exact List.mem_cons_of_mem _ isPiece
  joined := by
    have joined := join_pieces ':' spec.toList
    rw [cut] at joined
    simp [Function.comp_def, joined]

theorem parse?_eq_some_iff :
    parse? spec = some parsed ↔
      ∃ fields, IsWrittenAs parsed.scope fields spec ∧
        ∀ entry, entry ∈ parsed.exceptions ↔ entry ∈ fields := by
  constructor
  · intro read
    unfold parse? at read
    split at read
    · rename_i front first rest cut
      cases read
      exact ⟨_, isWrittenAs_of_pieces cut, fun _ => StringSet.mem_ofList⟩
    · contradiction
  · rintro ⟨fields, written, same⟩
    have exceptions : StringSet.ofList fields = parsed.exceptions := by
      apply StringSet.ext
      intro entry
      rw [StringSet.mem_ofList, same]
    rw [written.parse?_eq, exceptions]

theorem exists_parse?_iff : (∃ parsed, parse? spec = some parsed) ↔ ':' ∈ spec.toList := by
  constructor
  · rintro ⟨parsed, read⟩
    obtain ⟨fields, written, -⟩ := parse?_eq_some_iff.mp read
    exact written.colon_mem
  · intro colon
    rw [parse?]
    cases cut : pieces (· == ':') spec.toList with
    | nil => exact absurd cut (pieces_ne_nil _ _)
    | cons front others =>
        cases others with
        | cons first rest => exact ⟨_, rfl⟩
        | nil =>
            -- A single piece is the whole text, and pieces have no colons.
            have joined := join_pieces ':' spec.toList
            rw [cut, join] at joined
            rw [← joined] at colon
            exact absurd colon (colon_not_mem_of_mem_pieces (cut ▸ List.mem_singleton_self _))

/-- A scope is read back from every text that it is written as.  A text is read exactly when it
has a colon, and is then one that the scope, which stands before the first colon, is written
as, with all its exceptions in some order and number and no others.  Texts that differ only in
the order and number of the exceptions are read as the same scope. -/
theorem parse?_isWrittenAs :
    (∀ scope fields spec, IsWrittenAs scope fields spec →
      ∃ parsed, parse? spec = some parsed ∧ parsed.scope = scope ∧
        ∀ entry, entry ∈ parsed.exceptions ↔ entry ∈ fields) ∧
    (∀ spec, (∃ parsed, parse? spec = some parsed) ↔ ':' ∈ spec.toList) ∧
    (∀ spec parsed, parse? spec = some parsed →
      parsed.scope.toList = spec.toList.takeWhile (· ≠ ':') ∧
      (∀ entry ∈ parsed.exceptions, ':' ∉ entry.toList) ∧
      ∃ fields, IsWrittenAs parsed.scope fields spec ∧
        ∀ entry, entry ∈ parsed.exceptions ↔ entry ∈ fields) ∧
    ∀ scope fields others first second,
      IsWrittenAs scope fields first → IsWrittenAs scope others second →
      (∀ entry, entry ∈ fields ↔ entry ∈ others) → parse? first = parse? second := by
  refine ⟨?_, fun spec => exists_parse?_iff, ?_, ?_⟩
  · intro scope fields spec written
    exact ⟨_, written.parse?_eq, rfl, fun entry => StringSet.mem_ofList⟩
  · intro spec parsed read
    obtain ⟨fields, written, same⟩ := parse?_eq_some_iff.mp read
    refine ⟨written.takeWhile_eq.symm, ?_, fields, written, same⟩
    intro entry member
    exact written.plainFields entry ((same entry).mp member)
  · intro scope fields others first second written writtenAgain same
    rw [written.parse?_eq]
    symm
    apply parse?_eq_some_iff.mpr
    refine ⟨others, writtenAgain, ?_⟩
    intro entry
    rw [StringSet.mem_ofList, same]

/-- An empty exception, and one that comes twice. -/
theorem parse?_repeatedField :
    IsWrittenAs "lib/pub" ["priv/", "", "priv/"] "lib/pub:priv/::priv/" ∧
      IsWrittenAs "lib/pub" ["", "priv/"] "lib/pub::priv/" ∧
      parse? "lib/pub:priv/::priv/" = some ⟨"lib/pub", .ofList ["", "priv/"]⟩ ∧
      parse? "lib/pub::priv/" = parse? "lib/pub:priv/::priv/" ∧
      "lib/pub".toList = "lib/pub:priv/::priv/".toList.takeWhile (· ≠ ':') := by
  have repeated : IsWrittenAs "lib/pub" ["priv/", "", "priv/"] "lib/pub:priv/::priv/" :=
    ⟨by decide, by decide, by decide, by decide⟩
  have short : IsWrittenAs "lib/pub" ["", "priv/"] "lib/pub::priv/" :=
    ⟨by decide, by decide, by decide, by decide⟩
  have again (entry : String) : entry ∈ ["priv/", "", "priv/"] ↔ entry ∈ ["", "priv/"] := by
    rw [List.mem_cons, or_iff_right_of_imp]
    rintro rfl
    decide
  obtain ⟨readBack, -, writes, agree⟩ := parse?_isWrittenAs
  obtain ⟨⟨text, exceptions⟩, read, rfl, same⟩ := readBack _ _ _ repeated
  have members : exceptions = .ofList ["", "priv/"] := by
    apply StringSet.ext
    intro entry
    rw [same, StringSet.mem_ofList, again]
  subst members
  exact ⟨repeated, short, read, agree _ _ _ _ _ short repeated fun entry => (again entry).symm,
    (writes _ _ read).1⟩

end IncludeGate.AllowScope
