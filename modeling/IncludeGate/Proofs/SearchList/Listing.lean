import IncludeGate.Proofs.Text.Searching
import IncludeGate.SearchList

/-!
# Listings of directories

Between the two delimiters of a search list there are rows: names of directories with blanks
around them, names that are marked as frameworks, and rows of blanks.  The first row is the rest
of the line of the opening delimiter, and the last one is what stands before the closing
delimiter on its line; as a rule both are empty.

Every text between delimiters consists of such rows, in one way, so the grammar of listings given
here is complete: the directories that are read are those of the rows, and a text in which
nothing is read has no listing in it.
-/

namespace IncludeGate.SearchList

open Text

/-- The name of a directory in a listing. -/
structure IsEntry (entry : List Char) : Prop where
  nonempty : entry ≠ []
  trimmed : IsTrimmed entry
  oneLine : '\n' ∉ entry
  unmarked : ¬ frameworkMark <:+: entry
  unclosed : ¬ closing <:+: entry

/-- The rows of a listing with the given directories. -/
inductive Shows : List String → List (List Char) → Prop where
  | nil : Shows [] []
  | blank {row : List Char} {directories : List String} {rows : List (List Char)} :
      IsGap row → '\n' ∉ row → Shows directories rows → Shows directories (row :: rows)
  | framework {row : List Char} {directories : List String} {rows : List (List Char)} :
      frameworkMark <:+: row → ¬ closing <:+: row → '\n' ∉ row →
      Shows directories rows → Shows directories (row :: rows)
  | directory {front back : List Char} {directory : String} {directories : List String}
      {rows : List (List Char)} :
      IsGap front → '\n' ∉ front → IsEntry directory.toList → IsGap back → '\n' ∉ back →
      Shows directories rows →
      Shows (directory :: directories) ((front ++ directory.toList ++ back) :: rows)

/-- A text with a listing of the given directories in it.  The opening delimiter does not occur
before the listing. -/
def IsListing (directories : List String) (text : List Char) : Prop :=
  ∃ before rows after, Shows directories rows ∧ ¬ opening <:+: before ∧
    text = before ++ opening ++ join '\n' rows ++ closing ++ after

/-- The closing delimiter occurs after the first occurrence of the opening one. -/
def HasListing (text : List Char) : Prop :=
  ∃ before rest, IsFirst opening text before rest ∧ closing <:+: rest

/-- The directory that a row names. -/
def named? (row : List Char) : Option String :=
  if (trim row).isEmpty || occursIn frameworkMark (trim row) then none
  else some (String.ofList (trim row))

/-! ## Delimiters -/

variable {text before rest after : List Char}

theorem isFirst_opening_iff :
    IsFirst opening text before rest ↔
      text = before ++ opening ++ rest ∧ ¬ opening <:+: before :=
  isFirst_iff rfl (by decide)

theorem isFirst_closing_iff :
    IsFirst closing text before rest ↔
      text = before ++ closing ++ rest ∧ ¬ closing <:+: before :=
  isFirst_iff rfl (by decide)

theorem isTrimmed_frameworkMark : IsTrimmed frameworkMark := by
  decide

theorem isTrimmed_closing : IsTrimmed closing := by
  decide

/-! ## Rows -/

variable {directories : List String} {row : List Char} {rows : List (List Char)}

theorem named?_eq_none (dropped : trim row = [] ∨ frameworkMark <:+: trim row) :
    named? row = none := by
  rw [named?, if_pos]
  rwa [Bool.or_eq_true, List.isEmpty_iff, occursIn_iff_isInfix]

theorem named?_eq_some (filled : trim row ≠ []) (unmarked : ¬ frameworkMark <:+: trim row) :
    named? row = some (String.ofList (trim row)) := by
  rw [named?, if_neg]
  rw [Bool.or_eq_true, List.isEmpty_iff, occursIn_iff_isInfix, not_or]
  exact ⟨filled, unmarked⟩

theorem named?_of_gap (isGap : IsGap row) : named? row = none := by
  have trimmed := trim_append_gap isGap []
  exact named?_eq_none (.inl trimmed)

/-- A row is marked as a framework if what it names is. -/
theorem frameworkMark_infix_iff : frameworkMark <:+: row ↔ frameworkMark <:+: trim row := by
  obtain ⟨front, back, frontGap, backGap, equal⟩ := exists_trim_eq row
  have bare : frameworkMark <:+: front ++ trim row ++ back ↔ frameworkMark <:+: trim row :=
    infix_gap_append_gap_iff (by decide) isTrimmed_frameworkMark frontGap backGap
  rwa [← equal] at bare

theorem named?_of_framework (marked : frameworkMark <:+: row) : named? row = none :=
  named?_eq_none (.inr (frameworkMark_infix_iff.mp marked))

theorem IsEntry.named?_eq {front back : List Char} {directory : String}
    (isEntry : IsEntry directory.toList) (frontGap : IsGap front) (backGap : IsGap back) :
    named? (front ++ directory.toList ++ back) = some directory := by
  have trimmed := trim_gap_append_gap frontGap isEntry.trimmed backGap
  rw [named?_eq_some, trimmed, String.ofList_toList]
  · rw [trimmed]
    exact isEntry.nonempty
  · rw [trimmed]
    exact isEntry.unmarked

theorem closing_not_infix_of_gap (isGap : IsGap row) : ¬ closing <:+: row := by
  intro inside
  exact absurd (isGap 'E' (inside.subset (by decide))) (by decide)

/-- The rows of a listing are lines, and the closing delimiter is in none of them. -/
theorem Shows.inside (shows : Shows directories rows) :
    ∀ row ∈ rows, '\n' ∉ row ∧ ¬ closing <:+: row := by
  induction shows with
  | nil => simp
  | blank isGap oneLine _ ih =>
      exact List.forall_mem_cons.mpr ⟨⟨oneLine, closing_not_infix_of_gap isGap⟩, ih⟩
  | framework _ unclosed oneLine _ ih =>
      exact List.forall_mem_cons.mpr ⟨⟨oneLine, unclosed⟩, ih⟩
  | directory frontGap frontLine isEntry backGap backLine _ ih =>
      refine List.forall_mem_cons.mpr ⟨⟨?_, ?_⟩, ih⟩
      · simp [frontLine, isEntry.oneLine, backLine]
      · rw [infix_gap_append_gap_iff (by decide) isTrimmed_closing frontGap backGap]
        exact isEntry.unclosed

theorem Shows.isEntry (shows : Shows directories rows) :
    ∀ directory ∈ directories, IsEntry directory.toList := by
  induction shows with
  | nil => simp
  | blank _ _ _ ih | framework _ _ _ _ ih => exact ih
  | directory _ _ isEntry _ _ _ ih => exact List.forall_mem_cons.mpr ⟨isEntry, ih⟩

theorem Shows.entries (shows : Shows directories rows) : rows.filterMap named? = directories := by
  induction shows with
  | nil => rfl
  | blank isGap _ _ ih => rw [List.filterMap_cons_none (named?_of_gap isGap), ih]
  | framework marked _ _ _ ih => rw [List.filterMap_cons_none (named?_of_framework marked), ih]
  | directory frontGap _ isEntry backGap _ _ ih =>
      rw [List.filterMap_cons_some (isEntry.named?_eq frontGap backGap), ih]

theorem isEntry_trim (filled : trim row ≠ []) (unmarked : ¬ frameworkMark <:+: row)
    (oneLine : '\n' ∉ row) (unclosed : ¬ closing <:+: row) : IsEntry (trim row) where
  nonempty := filled
  trimmed := isTrimmed_trim row
  oneLine member := oneLine ((trim_isInfix row).subset member)
  unmarked marked := unmarked (frameworkMark_infix_iff.mpr marked)
  unclosed closed := unclosed (closed.trans (trim_isInfix row))

/-- Any lines without the closing delimiter are rows of a listing. -/
theorem shows_of_lines (inside : ∀ row ∈ rows, '\n' ∉ row ∧ ¬ closing <:+: row) :
    Shows (rows.filterMap named?) rows := by
  induction rows with
  | nil => exact .nil
  | cons row rows ih =>
      obtain ⟨⟨oneLine, unclosed⟩, others⟩ := List.forall_mem_cons.mp inside
      by_cases marked : frameworkMark <:+: row
      · rw [List.filterMap_cons_none (named?_of_framework marked)]
        exact .framework marked unclosed oneLine (ih others)
      by_cases empty : trim row = []
      · have isGap := isGap_of_trim_eq_nil empty
        rw [List.filterMap_cons_none (named?_of_gap isGap)]
        exact .blank isGap oneLine (ih others)
      · have isEntry := isEntry_trim empty marked oneLine unclosed
        obtain ⟨front, back, frontGap, backGap, equal⟩ := exists_trim_eq row
        rw [equal] at oneLine
        simp only [List.mem_append, not_or] at oneLine
        rw [← String.toList_ofList (l := trim row)] at isEntry
        have shown := Shows.directory frontGap oneLine.1.1 isEntry backGap oneLine.2 (ih others)
        rw [String.toList_ofList, ← equal] at shown
        rw [frameworkMark_infix_iff] at marked
        rwa [List.filterMap_cons_some (named?_eq_some empty marked)]

/-! ## Listings -/

theorem entries_eq_filterMap (rows : List (List Char)) :
    ((rows.map trim).filter fun entry =>
        !entry.isEmpty && !occursIn frameworkMark entry).map String.ofList =
      rows.filterMap named? := by
  induction rows with
  | nil => rfl
  | cons row rows ih =>
      rw [List.map_cons, List.filter_cons, List.filterMap_cons, named?, ← Bool.not_or]
      cases (trim row).isEmpty || occursIn frameworkMark (trim row) with
      | true => exact ih
      | false => exact congrArg (String.ofList (trim row) :: ·) ih

theorem directories?_of_cut {listing : List Char} (opened : cut opening text = some (before, rest))
    (closed : cut closing rest = some (listing, after)) :
    directories? text = some ((lines listing).filterMap named?) := by
  simp only [directories?, opened, closed, Option.bind_eq_bind, Option.bind_some,
    entries_eq_filterMap]

/-- The ends of lines are blanks, so a listing may as well be cut at its line feeds. -/
theorem filterMap_lines (listing : List Char) :
    (lines listing).filterMap named? = (pieces (· == '\n') listing).filterMap named? := by
  apply filterMap_linesOfPieces (named?_of_gap isGap_nil)
  intro line
  rw [named?, named?, trim_dropReturn]

/-- Whatever stands before the closing delimiter is a listing. -/
theorem shows_pieces {listing : List Char} (unclosed : ¬ closing <:+: listing) :
    Shows ((lines listing).filterMap named?) (pieces (· == '\n') listing) := by
  rw [filterMap_lines]
  apply shows_of_lines
  intro row member
  constructor
  · intro feed
    exact absurd (not_separator_of_mem_pieces member feed) (by decide)
  · intro closed
    have inListing := infix_join '\n' member
    rw [join_pieces] at inListing
    exact unclosed (closed.trans inListing)

theorem Shows.filterMap_lines (shows : Shows directories rows) :
    (lines (join '\n' rows)).filterMap named? = directories := by
  by_cases empty : rows = []
  · subst empty
    exact shows.entries
  · rw [SearchList.filterMap_lines,
      pieces_join empty fun row member => (shows.inside row member).1, shows.entries]

theorem Shows.unclosed (shows : Shows directories rows) : ¬ closing <:+: join '\n' rows := by
  intro closed
  obtain ⟨row, member, inRow⟩ := exists_infix_of_infix_join (by decide) (by decide) closed
  exact (shows.inside row member).2 inRow

theorem IsListing.isEntry (isListing : IsListing directories text) :
    ∀ directory ∈ directories, IsEntry directory.toList := by
  obtain ⟨before, rows, after, shows, -, -⟩ := isListing
  exact shows.isEntry

/-- The directories that are read from a text are those of a listing in it. -/
theorem directories?_eq_some_iff :
    directories? text = some directories ↔ IsListing directories text := by
  constructor
  · intro read
    cases opened : cut opening text with
    | none => simp [directories?, opened] at read
    | some found =>
        obtain ⟨before, rest⟩ := found
        cases closed : cut closing rest with
        | none => simp [directories?, opened, closed] at read
        | some found =>
            obtain ⟨listing, after⟩ := found
            rw [directories?_of_cut opened closed, Option.some.injEq] at read
            obtain ⟨rfl, absent⟩ := isFirst_opening_iff.mp (cut_eq_some_iff.mp opened)
            obtain ⟨rfl, unclosed⟩ := isFirst_closing_iff.mp (cut_eq_some_iff.mp closed)
            refine ⟨before, _, after, read ▸ shows_pieces unclosed, absent, ?_⟩
            simp only [join_pieces, List.append_assoc]
  · rintro ⟨before, rows, after, shows, absent, rfl⟩
    have split : before ++ opening ++ join '\n' rows ++ closing ++ after =
        before ++ opening ++ (join '\n' rows ++ closing ++ after) := by
      simp only [List.append_assoc]
    have opened := cut_eq_some_iff.mpr (isFirst_opening_iff.mpr ⟨split, absent⟩)
    have closed : cut closing (join '\n' rows ++ closing ++ after) =
        some (join '\n' rows, after) :=
      cut_eq_some_iff.mpr (isFirst_closing_iff.mpr ⟨rfl, shows.unclosed⟩)
    rw [directories?_of_cut opened closed, shows.filterMap_lines]

theorem Shows.concat_nil (shows : Shows directories rows) : Shows directories (rows ++ [[]]) := by
  induction shows with
  | nil => exact .blank isGap_nil List.not_mem_nil .nil
  | blank isGap oneLine _ ih => exact .blank isGap oneLine ih
  | framework marked unclosed oneLine _ ih => exact .framework marked unclosed oneLine ih
  | directory frontGap frontLine isEntry backGap backLine _ ih =>
      exact .directory frontGap frontLine isEntry backGap backLine ih

/-- A listing as compilers write it, with each row on a line of its own. -/
theorem isListing_unlines (shows : Shows directories rows) (absent : ¬ opening <:+: before)
    (after : List Char) :
    IsListing directories (before ++ opening ++ '\n' :: unlines rows ++ closing ++ after) := by
  refine ⟨before, [] :: (rows ++ [[]]), after, ?_, absent, ?_⟩
  · exact .blank isGap_nil List.not_mem_nil shows.concat_nil
  · rw [join_cons_concat_nil, List.nil_append]

/-- There is a listing where the closing delimiter comes after the opening one. -/
theorem exists_isListing_iff : (∃ directories, IsListing directories text) ↔ HasListing text := by
  constructor
  · rintro ⟨directories, before, rows, after, -, absent, rfl⟩
    refine ⟨before, join '\n' rows ++ closing ++ after,
      isFirst_opening_iff.mpr ⟨?_, absent⟩, ⟨join '\n' rows, after, rfl⟩⟩
    simp only [List.append_assoc]
  · rintro ⟨before, rest, isFirst, closed⟩
    obtain ⟨⟨listing, after⟩, found⟩ :=
      Option.isSome_iff_exists.mp (occursIn_iff_isInfix.mpr closed)
    exact ⟨_, directories?_eq_some_iff.mp
      (directories?_of_cut (cut_eq_some_iff.mpr isFirst) found)⟩

end IncludeGate.SearchList
