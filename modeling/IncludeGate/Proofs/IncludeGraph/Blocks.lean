import IncludeGate.Proofs.IncludeGraph.Reading

/-!
# Blocks of preprocessed text

What stands between a marker that enters a file and the marker that returns from it is a
block, if every file that is entered in between is left again.  A block is read without
regard to the files below the one that is open when it begins: they stay as they are, and the
edges of the block are the same whatever they are.  At its end the file of the return is open
in place of that one.

The law follows the way in which blocks are nested.  It needs no more of a marker than what it
does to the open files, so a file may be renamed anywhere in a block, and by the return too.

A return without an entry renames the last open file and does not close it, so that once a
file is open there is always one.
-/

namespace IncludeGate.IncludeGraph

open Text

/-! ## Reading line by line -/

/-- How far the reading of a text has come. -/
structure Progress where
  /-- The edges that have been found. -/
  found : List IncludeEdge
  /-- The open files, the innermost one first. -/
  frames : List Frame

namespace Progress

/-- Nothing has been read. -/
def start : Progress := ⟨[], []⟩

/-- Read one more line. -/
def read (unit : String) (progress : Progress) (line : List Char) : Progress :=
  ⟨progress.found ++ (edge? unit progress.frames (Linemarker.parse? line)).toList,
    advance progress.frames (Linemarker.parse? line)⟩

/-- Read several lines, one after the other. -/
def readAll (unit : String) (progress : Progress) (lines : List (List Char)) : Progress :=
  lines.foldl (read unit) progress

/-- Lines add their edges to those that have been found. -/
theorem readAll_eq (unit : String) (found : List IncludeEdge) (frames : List Frame)
    (lines : List (List Char)) :
    readAll unit ⟨found, frames⟩ lines =
      ⟨found ++ edgesFrom unit frames (lines.map Linemarker.parse?),
        framesAfter frames (lines.map Linemarker.parse?)⟩ := by
  induction lines generalizing found frames with
  | nil => simp [readAll, edgesFrom]
  | cons line rest ih =>
      have next : readAll unit ⟨found, frames⟩ (line :: rest) =
          readAll unit (read unit ⟨found, frames⟩ line) rest := rfl
      rw [next, read, ih, List.map_cons, edgesFrom, framesAfter_cons, List.append_assoc]

theorem found_readAll_start (unit : String) (text : List Char) :
    (readAll unit start (lines text)).found = edges unit text := by
  rw [start, readAll_eq]
  rfl

end Progress

/-! ## Balanced lines -/

/-- Lines in which every file that is entered is left again: lines of text, markers that say
where the current file goes on, and blocks, in any order and nested to any depth. -/
inductive Balanced : List (Option Linemarker) → Prop where
  | nil : Balanced []
  | text {rest : List (Option Linemarker)} : Balanced rest → Balanced (none :: rest)
  | stay {marker : Linemarker} {rest : List (Option Linemarker)} :
      moveOf marker = .stay → Balanced rest → Balanced (some marker :: rest)
  | block {entering leaving : Linemarker} {inner rest : List (Option Linemarker)} :
      moveOf entering = .enter → Balanced inner → moveOf leaving = .leave → Balanced rest →
      Balanced (some entering :: inner ++ some leaving :: rest)

/-- A marker that enters a file, balanced lines, and a marker that returns to a file and makes
a line of it the next one. -/
inductive IsBlock (file : String) (line : UInt32) : List (Option Linemarker) → Prop where
  | block {entering leaving : Linemarker} {inner : List (Option Linemarker)} :
      moveOf entering = .enter → Balanced inner → moveOf leaving = .leave →
      leaving.file = file → leaving.line = line →
      IsBlock file line (some entering :: inner ++ [some leaving])

/-! ## Reading above other files -/

/-- Whatever files are open below one, lines find the same edges and leave the same file open
in its place. -/
structure ReadsAbove (unit : String) (top : Frame) (lines : List (Option Linemarker))
    (found : List IncludeEdge) (last : Frame) : Prop where
  edges : ∀ below, edgesFrom unit (top :: below) lines = found
  frames : ∀ below, framesAfter (top :: below) lines = last :: below

variable {unit file : String} {line : UInt32} {top inner last : Frame}
variable {found further : List IncludeEdge}

namespace ReadsAbove

theorem nil : ReadsAbove unit top [] [] top :=
  ⟨fun _ => rfl, fun _ => rfl⟩

theorem append {first second : List (Option Linemarker)} {between : Frame}
    (left : ReadsAbove unit top first found between)
    (right : ReadsAbove unit between second further last) :
    ReadsAbove unit top (first ++ second) (found ++ further) last where
  edges := by
    intro below
    rw [edgesFrom_append, left.edges, left.frames, right.edges]
  frames := by
    intro below
    rw [framesAfter_append, left.frames, right.frames]

theorem text (top : Frame) :
    ReadsAbove unit top [none] [] ⟨top.file, lineAfter top.nextLine⟩ :=
  ⟨fun _ => rfl, fun _ => rfl⟩

theorem stay {marker : Linemarker} (stays : moveOf marker = .stay) (top : Frame) :
    ReadsAbove unit top [some marker] [] ⟨marker.file, marker.line⟩ where
  edges := by
    intro below
    rw [edgesFrom, edge?_of_moveOf_ne (by simp [stays])]
    rfl
  frames := by
    intro below
    rw [framesAfter_cons, advance_of_stay stays, framesAfter_nil]

/-- What is read above the file that one marker enters, is read above the file around it when
another marker returns there. -/
theorem block {entering leaving : Linemarker} {lines : List (Option Linemarker)}
    (enters : moveOf entering = .enter)
    (reads : ReadsAbove unit ⟨entering.file, entering.line⟩ lines found inner)
    (leaves : moveOf leaving = .leave) (top : Frame) :
    ReadsAbove unit top (some entering :: lines ++ [some leaving])
      ((edge? unit [top] (some entering)).toList ++ found) ⟨leaving.file, leaving.line⟩ where
  edges := by
    intro below
    -- The edge of the entry comes from the innermost file alone.
    have entry : edge? unit (top :: below) (some entering) = edge? unit [top] (some entering) := rfl
    have back : ∀ frames, edge? unit frames (some leaving) = none :=
      fun _ => edge?_of_moveOf_ne (by simp [leaves])
    rw [List.cons_append, edgesFrom, entry, advance_of_enter enters, edgesFrom_append,
      reads.edges, edgesFrom, back]
    simp [edgesFrom]
  frames := by
    intro below
    rw [List.cons_append, framesAfter_cons, advance_of_enter enters, framesAfter_append,
      reads.frames, framesAfter_cons, advance_of_leave leaves, framesAfter_nil]

end ReadsAbove

/-- Balanced lines are read above any other files. -/
theorem Balanced.readsAbove {lines : List (Option Linemarker)} (balanced : Balanced lines)
    (unit : String) (top : Frame) : ∃ found last, ReadsAbove unit top lines found last := by
  induction balanced generalizing top with
  | nil => exact ⟨_, _, .nil⟩
  | text _ ih =>
      obtain ⟨found, last, reads⟩ := ih ⟨top.file, lineAfter top.nextLine⟩
      exact ⟨_, _, (ReadsAbove.text top).append reads⟩
  | @stay marker rest stays _ ih =>
      obtain ⟨found, last, reads⟩ := ih ⟨marker.file, marker.line⟩
      exact ⟨_, _, (ReadsAbove.stay stays top).append reads⟩
  | @block entering leaving inner rest enters _ leaves _ innerIH restIH =>
      obtain ⟨found, innerLast, innerReads⟩ := innerIH ⟨entering.file, entering.line⟩
      obtain ⟨further, last, restReads⟩ := restIH ⟨leaving.file, leaving.line⟩
      have parted : some entering :: inner ++ some leaving :: rest =
          some entering :: inner ++ [some leaving] ++ rest := by
        simp
      rw [parted]
      exact ⟨_, _, (ReadsAbove.block enters innerReads leaves top).append restReads⟩

/-- A block puts the file of its return in the place of the file that it began in. -/
theorem IsBlock.readsAbove {lines : List (Option Linemarker)} (block : IsBlock file line lines)
    (unit : String) (top : Frame) : ∃ found, ReadsAbove unit top lines found ⟨file, line⟩ := by
  cases block with
  | @block entering leaving inner enters balanced leaves toFile atLine =>
      obtain ⟨found, last, reads⟩ := balanced.readsAbove unit ⟨entering.file, entering.line⟩
      subst toFile atLine
      exact ⟨_, .block enters reads leaves top⟩

/-! ## Open files -/

/-- No line closes the last open file. -/
theorem advance_ne_nil {frames : List Frame} (nonempty : frames ≠ [])
    (line : Option Linemarker) : advance frames line ≠ [] := by
  cases line with
  | none =>
      cases frames with
      | nil => contradiction
      | cons top below => exact List.cons_ne_nil _ _
  | some marker =>
      obtain ⟨below, moved⟩ := advance_some frames marker
      rw [moved]
      exact List.cons_ne_nil _ _

theorem framesAfter_ne_nil {frames : List Frame} (nonempty : frames ≠ [])
    (lines : List (Option Linemarker)) : framesAfter frames lines ≠ [] := by
  induction lines generalizing frames with
  | nil => exact nonempty
  | cons line rest ih => exact ih (advance_ne_nil nonempty line)

/-- The edges of a text are found line by line.  A block adds to those that have been found
the edges that it has above the innermost file alone, leaves the files below that one as they
are, and puts the file of its return in its place; and lines that are no block, too, leave a
file open if there is one. -/
theorem readAll_block (unit : String) :
    (∀ text, (Progress.start.readAll unit (lines text)).found = edges unit text) ∧
    (∀ file line block, IsBlock file line (block.map Linemarker.parse?) →
      ∀ found top below,
        Progress.readAll unit ⟨found, top :: below⟩ block =
          ⟨found ++ edgesFrom unit [top] (block.map Linemarker.parse?),
            ⟨file, line⟩ :: below⟩) ∧
    ∀ (progress : Progress) (lines : List (List Char)), progress.frames ≠ [] →
      (progress.readAll unit lines).frames ≠ [] := by
  refine ⟨Progress.found_readAll_start unit, ?_, ?_⟩
  · intro file line block isBlock found top below
    obtain ⟨edges, reads⟩ := isBlock.readsAbove unit top
    rw [Progress.readAll_eq, reads.edges, reads.edges, reads.frames]
  · intro progress lines nonempty
    rw [Progress.readAll_eq]
    exact framesAfter_ne_nil nonempty _

/-! ## A block with a block in it -/

/-- A header that goes on as a grammar, includes another one, and returns to its includer,
which has another name by then. -/
def nestedBlock : List (List Char) :=
  ["# 1 \"/w/a.h\" 1", "int a;", "# 9 \"gen.y\"", "# 1 \"/w/b.h\" 1 3", "# 10 \"gen.y\" 2",
    "# 5 \"/w/renamed.h\" 2"].map String.toList

theorem isBlock_nestedBlock :
    IsBlock "/w/renamed.h" 5 (nestedBlock.map Linemarker.parse?) := by
  have parsed : nestedBlock.map Linemarker.parse? =
      [some (marker .enter 1 "/w/a.h" []), none, some (marker .stay 9 "gen.y" []),
        some (marker .enter 1 "/w/b.h" [.systemHeader]), some (marker .leave 10 "gen.y" []),
        some (marker .leave 5 "/w/renamed.h" [])] := by
    decide +kernel
  rw [parsed]
  have moves := moveOf_marker
  have inner : Balanced [some (marker .enter 1 "/w/b.h" [.systemHeader]),
      some (marker .leave 10 "gen.y" [])] :=
    .block (moves ..) .nil (moves ..) .nil
  exact .block (moves ..) (.text (.stay (moves ..) inner)) (moves ..) rfl rfl

/-- Returns that nobody entered. -/
def strayReturns : List (List Char) :=
  ["# 1 \"/w/gone.h\" 2", "# 2 \"<stdin>\" 2"].map String.toList

theorem readAll_nestedBlock :
    IsBlock "/w/renamed.h" 5 (nestedBlock.map Linemarker.parse?) ∧
    Progress.readAll "<stdin>"
        ⟨[⟨"/w/top.h", "<stdin>", ⟨"<stdin>", 1, 0⟩⟩], [⟨"/w/top.h", 7⟩, ⟨"<stdin>", 1⟩]⟩
        nestedBlock =
      ⟨[⟨"/w/top.h", "<stdin>", ⟨"<stdin>", 1, 0⟩⟩, ⟨"/w/a.h", "/w/top.h", ⟨"/w/top.h", 7, 0⟩⟩,
          ⟨"/w/b.h", "gen.y", ⟨"gen.y", 9, 0⟩⟩],
        [⟨"/w/renamed.h", 5⟩, ⟨"<stdin>", 1⟩]⟩ ∧
    (Progress.readAll "<stdin>" ⟨[], [⟨"<stdin>", 1⟩]⟩ strayReturns).frames ≠ [] := by
  obtain ⟨-, ofBlock, stays⟩ := readAll_block "<stdin>"
  have alone : edgesFrom "<stdin>" [⟨"/w/top.h", 7⟩] (nestedBlock.map Linemarker.parse?) =
      [⟨"/w/a.h", "/w/top.h", ⟨"/w/top.h", 7, 0⟩⟩, ⟨"/w/b.h", "gen.y", ⟨"gen.y", 9, 0⟩⟩] := by
    decide +kernel
  refine ⟨isBlock_nestedBlock, ?_, stays _ _ (by simp)⟩
  rw [ofBlock _ _ _ isBlock_nestedBlock, alone]
  rfl

end IncludeGate.IncludeGraph
