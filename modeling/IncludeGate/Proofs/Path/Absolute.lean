import IncludeGate.Path
import IncludeGate.Proofs.Text.Written

/-!
# Absolute paths

Folding an absolute path leaves names between slashes, with a slash in front.  On paths
of this form, going into a directory adds a name, and the parent is the path without its
last name.
-/

namespace IncludeGate.Path

open Text

/-- A component that leads down into a directory. -/
structure IsSegment (segment : List Char) : Prop where
  ne_nil : segment ≠ []
  ne_current : segment ≠ currentName
  noSlash : '/' ∉ segment

/-- The path from the root along the given names. -/
def absolute (names : List (List Char)) : String :=
  String.ofList ('/' :: Text.join '/' names)

@[simp] theorem toList_absolute (names : List (List Char)) :
    (absolute names).toList = '/' :: Text.join '/' names :=
  String.toList_ofList

theorem isSegment_of_mem_segments {path segment : List Char}
    (member : segment ∈ segments path) : IsSegment segment := by
  rw [segments, List.mem_filter] at member
  obtain ⟨piece, kept⟩ := member
  simp only [Bool.and_eq_true, Bool.not_eq_true', List.isEmpty_eq_false_iff, bne_iff_ne] at kept
  refine ⟨kept.1, kept.2, fun slash => ?_⟩
  exact absurd (not_separator_of_mem_pieces piece slash) (by decide)

theorem isSegment_parentName : IsSegment parentName :=
  ⟨by decide, by decide, by decide⟩

theorem followSegment_segments {absolute : Bool} {taken : List (List Char)} {segment : List Char}
    (before : ∀ name ∈ taken, IsSegment name) (here : IsSegment segment) :
    ∀ name ∈ followSegment absolute taken segment, IsSegment name := by
  unfold followSegment
  split
  · cases taken with
    | nil =>
        cases absolute with
        | true => exact before
        | false => exact List.forall_mem_singleton.mpr isSegment_parentName
    | cons last taken =>
        dsimp only
        split
        · exact List.forall_mem_cons.mpr ⟨isSegment_parentName, before⟩
        · exact (List.forall_mem_cons.mp before).2
  · exact List.forall_mem_cons.mpr ⟨here, before⟩

theorem isSegment_of_mem_fold {absolute : Bool} {path : List (List Char)}
    (segments : ∀ name ∈ path, IsSegment name) : ∀ name ∈ fold absolute path, IsSegment name := by
  have kept : ∀ taken, (∀ name ∈ taken, IsSegment name) →
      ∀ name ∈ path.foldl (followSegment absolute) taken, IsSegment name := by
    induction path with
    | nil => exact fun _ before => before
    | cons first path ih =>
        obtain ⟨here, others⟩ := List.forall_mem_cons.mp segments
        exact fun taken before => ih others _ (followSegment_segments before here)
  intro name member
  rw [fold, List.mem_reverse] at member
  exact kept [] nofun name member

/-- An absolute path is folded to names between slashes. -/
theorem exists_absolute_of_normalize {path : String} (rooted : isAbsolute path = true) :
    ∃ names, (∀ name ∈ names, IsSegment name) ∧ normalize path = absolute names := by
  refine ⟨fold true (segments path.toList),
    isSegment_of_mem_fold fun _ => isSegment_of_mem_segments, ?_⟩
  simp only [normalize, rooted, if_true, absolute]

section Names

variable {names : List (List Char)} {segment : List Char}

theorem eq_nil_or_concat (names : List (List Char)) :
    names = [] ∨ ∃ front last, names = front ++ [last] := by
  simpa using List.eq_nil_or_concat names

/-- A name inside a directory is one name more. -/
theorem join_absolute (segments : ∀ name ∈ names, IsSegment name) {name : String}
    (isSegment : IsSegment name.toList) :
    Path.join (absolute names) name = absolute (names ++ [name.toList]) := by
  have relative : ¬ isAbsolute name = true := by
    simp only [isAbsolute, beq_iff_eq]
    exact fun first => isSegment.noSlash (List.mem_of_head? first)
  apply String.toList_injective
  rw [Path.join, if_neg relative]
  rcases eq_nil_or_concat names with rfl | ⟨front, last, rfl⟩
  · have root : (absolute []).toList.getLast? = some '/' := by rw [toList_absolute]; rfl
    rw [if_pos (.inr root), String.toList_append, toList_absolute, toList_absolute]
    rfl
  · have filled : ¬ (absolute (front ++ [last])).isEmpty = true := by
      intro empty
      have := congrArg String.toList (String.isEmpty_iff.mp empty)
      simp at this
    have lastSegment := segments last (List.mem_append_right _ List.mem_cons_self)
    have noSlash : (absolute (front ++ [last])).toList.getLast? ≠ some '/' := by
      rw [toList_absolute]
      exact getLast?_cons_join_concat_ne front lastSegment.ne_nil lastSegment.noSlash
    rw [if_neg (not_or.mpr ⟨filled, noSlash⟩), toList_absolute, join_concat (by simp)]
    simp

/-- No name in a path is trimmed. -/
theorem trimBack_reverse_append (isSegment : IsSegment segment) (rest : List Char) :
    trimBack (segment.reverse ++ rest) = segment.reverse ++ rest := by
  have noSlash : '/' ∉ segment.reverse := by simpa using isSegment.noSlash
  have noCurrent : segment.reverse ≠ ['.'] := by
    intro equal
    exact isSegment.ne_current (List.reverse_eq_iff.mp equal)
  have filled : segment.reverse ≠ [] := by simpa using isSegment.ne_nil
  generalize segment.reverse = back at noSlash noCurrent filled
  rcases back with _ | ⟨first, _ | ⟨second, back⟩⟩
  · contradiction
  · have noFirst : first ≠ '/' := by simpa [eq_comm] using noSlash
    have noPoint : first ≠ '.' := by simpa using noCurrent
    rw [trimBack] <;> simp [noFirst, noPoint]
  · have noFirst : first ≠ '/' := by
      rintro rfl
      exact noSlash List.mem_cons_self
    have noSecond : second ≠ '/' := by
      rintro rfl
      exact noSlash (List.mem_cons_of_mem _ List.mem_cons_self)
    rw [trimBack] <;> simp [noFirst, noSecond]

theorem trimBack_reverse_join (segments : ∀ name ∈ names, IsSegment name) :
    trimBack (Text.join '/' names).reverse = (Text.join '/' names).reverse := by
  rcases eq_nil_or_concat names with rfl | ⟨front, last, rfl⟩
  · rfl
  · obtain ⟨before, joined, -⟩ := exists_join_concat '/' front last
    have isSegment := segments last (List.mem_append_right _ List.mem_cons_self)
    rw [joined, List.reverse_append, trimBack_reverse_append isSegment]

/-- The parent of a path has all names but the last. -/
theorem parent?_absolute (segments : ∀ name ∈ names, IsSegment name)
    (isSegment : IsSegment segment) :
    parent? (absolute (names ++ [segment])) = some (absolute names) := by
  obtain ⟨front, joined, cut⟩ := exists_join_concat '/' names segment
  have solid : ∀ character ∈ segment.reverse, (character != '/') = true := by
    intro character member
    rw [bne_iff_ne]
    rintro rfl
    exact isSegment.noSlash (List.mem_reverse.mp member)
  have above : (trimBack (front.reverse.dropWhile (· != '/'))).reverse = Text.join '/' names := by
    rcases cut with ⟨rfl, rfl⟩ | rfl
    · rfl
    · have slash : trimBack ('/' :: (Text.join '/' names).reverse) =
          trimBack (Text.join '/' names).reverse := rfl
      rw [List.reverse_concat, List.dropWhile_cons_of_neg (by decide), slash,
        trimBack_reverse_join segments, List.reverse_reverse]
  have back : trimBack (front ++ segment).reverse = segment.reverse ++ front.reverse := by
    rw [List.reverse_append, trimBack_reverse_append isSegment]
  have start : splitStart (absolute (names ++ [segment])).toList = (['/'], front ++ segment) := by
    rw [toList_absolute, joined, splitStart]
  have dropped : (segment.reverse ++ front.reverse).dropWhile (· != '/') =
      front.reverse.dropWhile (· != '/') := List.dropWhile_append_of_pos solid
  have filled : segment.reverse ++ front.reverse ≠ [] := by simp [isSegment.ne_nil]
  simp only [parent?, start, back, dropped, above]
  rfl

/-- Different names make different paths. -/
theorem absolute_injective {others : List (List Char)} (nonempty : names ≠ [])
    (othersNonempty : others ≠ []) (segments : ∀ name ∈ names, IsSegment name)
    (othersSegments : ∀ name ∈ others, IsSegment name) (same : absolute names = absolute others) :
    names = others := by
  have joined := congrArg String.toList same
  rw [toList_absolute, toList_absolute, List.cons.injEq, and_iff_right rfl] at joined
  have cut := pieces_join nonempty fun name member => (segments name member).noSlash
  rw [joined, pieces_join othersNonempty fun name member =>
    (othersSegments name member).noSlash] at cut
  exact cut.symm

end Names

end IncludeGate.Path
