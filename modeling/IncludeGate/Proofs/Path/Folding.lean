import IncludeGate.Proofs.Path.Absolute

/-!
# Paths folded lexically

Folding follows the components of a path one by one and keeps those that are not taken back.
What it keeps has one form all the way: components that lead down, and before them only steps
up, of which there are none below the root.  A path of this form is kept as it is.

So a path may be folded before another one is joined to it, and what leads back to where it
begins can be put in between two components or left out.
-/

namespace IncludeGate.Path

open Text

/-! ## Components that are kept -/

/-- The components that are kept, the latest one first: steps up and then steps down. -/
inductive Folded (absolute : Bool) : List (List Char) → Prop where
  | ups {count : Nat} :
      (absolute = true → count = 0) → Folded absolute (List.replicate count parentName)
  | down {segment : List Char} {taken : List (List Char)} :
      segment ≠ parentName → Folded absolute taken → Folded absolute (segment :: taken)

variable {absolute : Bool} {taken path : List (List Char)} {segment : List Char}

theorem followSegment_of_ne (down : segment ≠ parentName) :
    followSegment absolute taken segment = segment :: taken :=
  if_neg down

/-- A step up takes back the step down before it. -/
theorem followSegment_parentName_cons (down : segment ≠ parentName) :
    followSegment absolute (segment :: taken) parentName = taken :=
  if_neg down

theorem followSegment_parentName_replicate (count : Nat) :
    followSegment false (List.replicate count parentName) parentName =
      List.replicate (count + 1) parentName := by
  cases count <;> rfl

/-- Following a component keeps the form. -/
theorem Folded.followSegment (folded : Folded absolute taken) (segment : List Char) :
    Folded absolute (followSegment absolute taken segment) := by
  by_cases up : segment = parentName
  · subst up
    cases folded with
    | @ups count none =>
        cases absolute with
        | true =>
            rw [none rfl]
            exact .ups fun _ => rfl
        | false =>
            rw [followSegment_parentName_replicate]
            exact .ups nofun
    | down isDown before =>
        rw [followSegment_parentName_cons isDown]
        exact before
  · rw [followSegment_of_ne up]
    exact .down up folded

theorem Folded.foldl (folded : Folded absolute taken) (path : List (List Char)) :
    Folded absolute (path.foldl (Path.followSegment absolute) taken) := by
  induction path generalizing taken with
  | nil => exact folded
  | cons segment path ih => exact ih (folded.followSegment segment)

theorem folded_nil : Folded absolute [] :=
  @Folded.ups absolute 0 fun _ => rfl

/-- What has been kept is kept again. -/
theorem Folded.foldl_reverse (folded : Folded absolute taken) :
    taken.reverse.foldl (Path.followSegment absolute) [] = taken := by
  induction folded with
  | @ups count none =>
      cases absolute with
      | true =>
          rw [none rfl]
          rfl
      | false =>
          rw [List.reverse_replicate]
          induction count with
          | zero => rfl
          | succ count ih =>
              rw [List.replicate_succ', List.foldl_append, ih nofun, ← List.replicate_succ']
              exact followSegment_parentName_replicate count
  | down isDown _ ih =>
      rw [List.reverse_cons, List.foldl_append, ih]
      exact followSegment_of_ne isDown

theorem Folded.exists_eq (folded : Folded absolute taken) :
    ∃ ups names, taken.reverse = List.replicate ups parentName ++ names ∧
      parentName ∉ names ∧ (absolute = true → ups = 0) := by
  induction folded with
  | @ups count none =>
      exact ⟨count, [], by rw [List.reverse_replicate, List.append_nil], by simp, none⟩
  | @down segment taken isDown _ ih =>
      obtain ⟨ups, names, kept, down, none⟩ := ih
      refine ⟨ups, names ++ [segment], ?_, ?_, none⟩
      · rw [List.reverse_cons, kept, List.append_assoc]
      · simp [down, Ne.symm isDown]

/-- The beginning of a path can be folded first. -/
theorem fold_fold_append (front back : List (List Char)) :
    fold absolute (fold absolute front ++ back) = fold absolute (front ++ back) := by
  have again := (folded_nil.foldl front : Folded absolute _).foldl_reverse
  rw [fold, fold, fold, List.foldl_append, List.foldl_append, again]

/-! ## Components of a text -/

theorem segments_nil : segments [] = [] := rfl

theorem segments_append_slash (front back : List Char) :
    segments (front ++ '/' :: back) = segments front ++ segments back := by
  rw [segments, pieces_append_separator (by decide), List.filter_append]
  rfl

theorem segments_slash (text : List Char) : segments ('/' :: text) = segments text :=
  segments_append_slash [] text

/-- Components are found again between slashes. -/
theorem segments_join {names : List (List Char)} (areSegments : ∀ name ∈ names, IsSegment name) :
    segments (Text.join '/' names) = names := by
  by_cases empty : names = []
  · subst empty
    rfl
  · rw [segments, pieces_join empty fun name member => (areSegments name member).noSlash]
    apply List.filter_eq_self.mpr
    intro name member
    simp [(areSegments name member).ne_nil, (areSegments name member).ne_current]

/-! ## Normal forms -/

theorem isAbsolute_iff {path : String} :
    isAbsolute path = true ↔ ∃ rest, path.toList = '/' :: rest := by
  rw [isAbsolute, beq_iff_eq, List.head?_eq_some_iff]

/-- What is kept of the components of a path. -/
def kept (path : String) : List (List Char) :=
  fold (isAbsolute path) (segments path.toList)

theorem isSegment_of_mem_kept {path : String} : ∀ name ∈ kept path, IsSegment name :=
  isSegment_of_mem_fold fun _ => isSegment_of_mem_segments

theorem normalize_of_absolute {path : String} (rooted : isAbsolute path = true) :
    (normalize path).toList = '/' :: Text.join '/' (kept path) := by
  simp [normalize, kept, rooted]

theorem normalize_of_relative {path : String} (relative : isAbsolute path = false) :
    (normalize path).toList = Text.join '/' (kept path) := by
  simp [normalize, kept, relative]

/-- Names between slashes do not begin with a slash. -/
theorem head?_join_ne {names : List (List Char)} (areSegments : ∀ name ∈ names, IsSegment name) :
    (Text.join '/' names).head? ≠ some '/' := by
  cases names with
  | nil => nofun
  | cons first names =>
      have isSegment := areSegments first List.mem_cons_self
      obtain ⟨character, rest, rfl⟩ := List.exists_cons_of_ne_nil isSegment.ne_nil
      have other : character ≠ '/' := by
        rintro rfl
        exact isSegment.noSlash List.mem_cons_self
      cases names <;> simpa [Text.join] using other

@[simp] theorem isAbsolute_normalize (path : String) :
    isAbsolute (normalize path) = isAbsolute path := by
  cases rooted : isAbsolute path with
  | true => exact isAbsolute_iff.mpr ⟨_, normalize_of_absolute rooted⟩
  | false =>
      rw [isAbsolute, normalize_of_relative rooted, beq_eq_false_iff_ne]
      exact head?_join_ne isSegment_of_mem_kept

@[simp] theorem segments_normalize (path : String) :
    segments (normalize path).toList = kept path := by
  cases rooted : isAbsolute path with
  | true => rw [normalize_of_absolute rooted, segments_slash, segments_join isSegment_of_mem_kept]
  | false => rw [normalize_of_relative rooted, segments_join isSegment_of_mem_kept]

/-- Paths have one normal form if they have one beginning and the same components are kept. -/
theorem normalize_congr {path other : String} (start : isAbsolute path = isAbsolute other)
    (components : kept path = kept other) : normalize path = normalize other := by
  apply String.toList_injective
  cases rooted : isAbsolute other with
  | true =>
      rw [normalize_of_absolute (start.trans rooted), normalize_of_absolute rooted, components]
  | false =>
      rw [normalize_of_relative (start.trans rooted), normalize_of_relative rooted, components]

theorem normalize_normalize (path : String) : normalize (normalize path) = normalize path := by
  apply normalize_congr (isAbsolute_normalize path)
  have again := @fold_fold_append (isAbsolute path) (segments path.toList) []
  rw [List.append_nil, List.append_nil] at again
  rw [kept, isAbsolute_normalize, segments_normalize]
  exact again

/-! ### What stands between the slashes -/

theorem pieces_join_segments {names : List (List Char)}
    (areSegments : ∀ name ∈ names, IsSegment name) :
    pieces (· == '/') (Text.join '/' names) = if names = [] then [[]] else names := by
  split
  · rename_i empty
    subst empty
    rfl
  · rename_i filled
    exact pieces_join filled fun name member => (areSegments name member).noSlash

theorem pieces_normalize_of_relative {path : String} (relative : isAbsolute path = false) :
    pieces (· == '/') (normalize path).toList =
      if kept path = [] then [[]] else kept path := by
  rw [normalize_of_relative relative, pieces_join_segments isSegment_of_mem_kept]

theorem pieces_normalize_of_absolute {path : String} (rooted : isAbsolute path = true) :
    pieces (· == '/') (normalize path).toList =
      [] :: if kept path = [] then [[]] else kept path := by
  rw [normalize_of_absolute rooted, pieces_cons_separator (by decide),
    pieces_join_segments isSegment_of_mem_kept]

theorem mem_kept_of_mem_pieces {path : String} {piece : List Char}
    (member : piece ∈ pieces (· == '/') (normalize path).toList) (filled : piece ≠ []) :
    piece ∈ kept path := by
  have inKept (inside : piece ∈ if kept path = [] then [[]] else kept path) :
      piece ∈ kept path := by
    split at inside
    · exact absurd (List.mem_singleton.mp inside) filled
    · exact inside
  cases rooted : isAbsolute path with
  | true =>
      rw [pieces_normalize_of_absolute rooted] at member
      exact inKept ((List.mem_cons.mp member).resolve_left filled)
  | false =>
      rw [pieces_normalize_of_relative rooted] at member
      exact inKept member

theorem exists_kept_eq (path : String) :
    ∃ ups names, kept path = List.replicate ups parentName ++ names ∧ parentName ∉ names ∧
      (isAbsolute path = true → ups = 0) :=
  (folded_nil.foldl (segments path.toList)).exists_eq

theorem currentName_not_mem_pieces (path : String) :
    currentName ∉ pieces (· == '/') (normalize path).toList := by
  intro member
  exact (isSegment_of_mem_kept _ (mem_kept_of_mem_pieces member (by decide))).ne_current rfl

theorem parentName_not_mem_pieces {path : String} (rooted : isAbsolute path = true) :
    parentName ∉ pieces (· == '/') (normalize path).toList := by
  intro member
  obtain ⟨ups, names, equal, noParent, none⟩ := exists_kept_eq path
  have inKept := mem_kept_of_mem_pieces member (by decide)
  rw [equal, none rooted] at inKept
  exact noParent inKept

theorem exists_pieces_eq {path : String} (relative : isAbsolute path = false) :
    ∃ ups names, pieces (· == '/') (normalize path).toList =
      List.replicate ups parentName ++ names ∧ parentName ∉ names := by
  rw [pieces_normalize_of_relative relative]
  split
  · exact ⟨0, [[]], rfl, by decide⟩
  · obtain ⟨ups, names, equal, noParent, -⟩ := exists_kept_eq path
    exact ⟨ups, names, equal, noParent⟩

/-! ## Joined paths -/

/-- Joining with a relative path writes it after a text that is the directory, with a slash at
its end. -/
theorem join_relative (directory : String) :
    (directory = "" ∧ ∀ path, isAbsolute path = false → join directory path = path) ∨
      ∃ front, (directory.toList = front ∧ front ≠ [] ∨ directory.toList = front ++ ['/']) ∧
        ∀ path, isAbsolute path = false →
          (join directory path).toList = front ++ '/' :: path.toList := by
  by_cases empty : directory = ""
  · subst empty
    refine .inl ⟨rfl, fun path relative => ?_⟩
    simp [join, relative]
  · right
    have filled : ¬ directory.isEmpty = true := by simpa using empty
    by_cases slash : directory.toList.getLast? = some '/'
    · obtain ⟨front, equal⟩ := List.getLast?_eq_some_iff.mp slash
      refine ⟨front, .inr equal, fun path relative => ?_⟩
      simp [join, relative, equal]
    · refine ⟨directory.toList, .inl ⟨rfl, by simpa using empty⟩, fun path relative => ?_⟩
      simp [join, relative, slash, empty]

theorem isAbsolute_join (directory : String) {path : String} (relative : isAbsolute path = false) :
    isAbsolute (join directory path) = isAbsolute directory := by
  rcases join_relative directory with ⟨rfl, same⟩ | ⟨front, written, joined⟩
  · rw [same path relative, relative]
    rfl
  · rw [isAbsolute, isAbsolute, joined path relative]
    rcases written with ⟨equal, filled⟩ | equal
    · rw [equal]
      cases front with
      | nil => contradiction
      | cons => rfl
    · rw [equal]
      cases front <;> rfl

theorem segments_toList_join (directory : String) {path : String}
    (relative : isAbsolute path = false) :
    segments (join directory path).toList =
      segments directory.toList ++ segments path.toList := by
  rcases join_relative directory with ⟨rfl, same⟩ | ⟨front, written, joined⟩
  · rw [same path relative]
    rfl
  · rw [joined path relative, segments_append_slash]
    rcases written with ⟨equal, -⟩ | equal
    · rw [equal]
    · rw [equal, segments_append_slash, segments_nil, List.append_nil]

/-- A directory can be folded before a path is joined to it. -/
theorem normalize_join (directory : String) {path : String} (relative : isAbsolute path = false) :
    normalize (join directory path) = normalize (join (normalize directory) path) := by
  apply normalize_congr
  · rw [isAbsolute_join directory relative, isAbsolute_join _ relative, isAbsolute_normalize]
  · rw [kept, kept, isAbsolute_join directory relative, isAbsolute_join _ relative,
      isAbsolute_normalize, segments_toList_join directory relative,
      segments_toList_join _ relative, segments_normalize]
    exact (fold_fold_append _ _).symm

/-! ## Detours -/

/-- What leads back to where it begins: slashes, the current directory, or a step down and up
again. -/
inductive Detour : List Char → Prop where
  | slashes (count : Nat) : Detour (List.replicate count '/')
  | current : Detour currentName
  | back {name : List Char} :
      IsSegment name → name ≠ parentName → Detour (name ++ '/' :: parentName)

theorem Detour.foldl_segments {detour : List Char} (isDetour : Detour detour)
    (taken : List (List Char)) :
    (segments detour).foldl (followSegment absolute) taken = taken := by
  cases isDetour with
  | slashes count =>
      have none : segments (List.replicate count '/') = [] := by
        induction count with
        | zero => rfl
        | succ count ih => rw [List.replicate_succ, segments_slash, ih]
      rw [none, List.foldl_nil]
  | current => rfl
  | @back name isSegment isDown =>
      have whole : segments (name ++ '/' :: parentName) = [name, parentName] := by
        rw [segments_append_slash]
        exact congrArg (· ++ [parentName])
          (segments_join (List.forall_mem_singleton.mpr isSegment))
      rw [whole, List.foldl_cons, List.foldl_cons, List.foldl_nil, followSegment_of_ne isDown,
        followSegment_parentName_cons isDown]

variable {path : String} {front back detour : List Char}

theorem isAbsolute_detour (spelled : path.toList = front ++ '/' :: back) (detour : List Char) :
    isAbsolute (String.ofList (front ++ '/' :: detour ++ '/' :: back)) = isAbsolute path := by
  rw [isAbsolute, isAbsolute, spelled, String.toList_ofList]
  cases front <;> rfl

/-- A detour between two components is folded away. -/
theorem normalize_detour (isDetour : Detour detour) (spelled : path.toList = front ++ '/' :: back) :
    normalize (String.ofList (front ++ '/' :: detour ++ '/' :: back)) = normalize path := by
  have start := isAbsolute_detour spelled detour
  apply normalize_congr start
  rw [kept, kept, start, spelled, String.toList_ofList, segments_append_slash,
    segments_append_slash, segments_append_slash, fold, fold, List.foldl_append,
    List.foldl_append, isDetour.foldl_segments, List.foldl_append]

/-- So is one in a path that is joined to a directory. -/
theorem normalize_join_detour (directory : String) (isDetour : Detour detour)
    (spelled : path.toList = front ++ '/' :: back) :
    normalize (join directory (String.ofList (front ++ '/' :: detour ++ '/' :: back))) =
      normalize (join directory path) := by
  have start := isAbsolute_detour spelled detour
  cases rooted : isAbsolute path with
  | true =>
      rw [join, join, if_pos rooted, if_pos (start.trans rooted)]
      exact normalize_detour isDetour spelled
  | false =>
      rcases join_relative directory with ⟨-, same⟩ | ⟨before, -, joined⟩
      · rw [same _ rooted, same _ (start.trans rooted)]
        exact normalize_detour isDetour spelled
      · have shorter : (join directory path).toList = (before ++ '/' :: front) ++ '/' :: back := by
          rw [joined _ rooted, spelled, List.append_assoc, List.cons_append]
        rw [← normalize_detour isDetour shorter]
        apply congrArg normalize
        apply String.toList_injective
        rw [joined _ (start.trans rooted)]
        simp

end IncludeGate.Path
