import IncludeGate.Proofs.IncludeGraph.Invariants

/-!
# Line numbers of edges

Lines of source files are counted from 1, but a directive of a file may say that it goes
on at line 0, and preprocessors pass that on.  A line of text moves the counter to 1 at
least, where it stays.  So an edge has line 0 exactly if the line before its marker is a
marker that says so.
-/

namespace IncludeGate.IncludeGraph

open Text

variable {unit : String}

theorem lineAfter_ne_zero (line : UInt32) : lineAfter line ≠ 0 := by
  intro zero
  have value : (lineAfter line).toNat = 0 := congrArg UInt32.toNat zero
  unfold lineAfter at value
  split at value
  · rename_i fits
    rw [UInt32.toNat_add] at value
    exact Nat.succ_ne_zero line.toNat ((Nat.mod_eq_of_lt fits).symm.trans value)
  · rename_i last
    rw [value] at last
    exact last (by decide)

theorem one_le_iff_ne_zero (line : UInt32) : 1 ≤ line ↔ line ≠ 0 := by
  rw [UInt32.le_iff_toNat_le, ne_eq, ← UInt32.toNat_inj]
  exact Nat.one_le_iff_ne_zero

theorem current_advance_some (unit : String) (frames : List Frame) (marker : Linemarker) :
    current unit (advance frames (some marker)) = ⟨marker.file, marker.line⟩ := by
  obtain ⟨below, moved⟩ := advance_some frames marker
  rw [moved, current]

theorem framesAfter_concat (frames : List Frame) (front : List (Option Linemarker))
    (last : Option Linemarker) :
    framesAfter frames (front ++ [last]) = advance (framesAfter frames front) last := by
  rw [framesAfter_append, framesAfter_cons, framesAfter_nil]

/-- Line 0 is reached only by a marker that says so. -/
theorem nextLine_eq_zero_iff (unit : String) (front : List (Option Linemarker)) :
    (current unit (framesAfter [] front)).nextLine = 0 ↔
      ∃ before marker, front = before ++ [some marker] ∧ marker.line = 0 := by
  rcases List.eq_nil_or_concat' front with rfl | ⟨before, last, rfl⟩
  · simp [current]
  · rw [framesAfter_concat]
    cases last with
    | none =>
        have counted : (current unit (advance (framesAfter [] before) none)).nextLine ≠ 0 := by
          cases framesAfter [] before with
          | nil => exact (by decide : (1 : UInt32) ≠ 0)
          | cons top below => exact lineAfter_ne_zero top.nextLine
        simp [counted]
    | some marker => simp [current_advance_some]

/-- A marker that says that the unit or a file goes on at line 0, and one that enters a file
from there. -/
structure EntersAtZero (unit : String) (before marker : Linemarker) : Prop where
  zero : before.line = 0
  readable : IsReadable unit before.file
  enters : marker.entersFile = true
  real : isPseudoFile marker.file = false

/-- The edges with line 0 are those of the markers that enter a file directly after a marker
with line 0. -/
theorem mem_edges_line_zero_iff (unit : String) (text : List Char) (edge : IncludeEdge) :
    edge ∈ edges unit text ∧ edge.location.line = 0 ↔
      ∃ before marker, EntersAtZero unit before marker ∧
        [some before, some marker] <:+: (lines text).map Linemarker.parse? ∧
        edge = edgeFrom ⟨before.file, 0⟩ marker := by
  rw [edges, mem_edgesFrom_iff]
  constructor
  · rintro ⟨⟨front, line, back, split, gives⟩, zero⟩
    obtain ⟨marker, rfl, enters, readable, real, rfl⟩ := edge?_eq_some_iff.mp gives
    obtain ⟨front, before, rfl, number⟩ := (nextLine_eq_zero_iff unit front).mp zero
    rw [framesAfter_concat, current_advance_some] at readable ⊢
    refine ⟨before, marker, ⟨number, readable, enters, real⟩, ⟨front, back, ?_⟩, ?_⟩
    · simp [split]
    · rw [number]
  · rintro ⟨before, marker, ⟨zero, readable, enters, real⟩, ⟨front, back, split⟩, rfl⟩
    refine ⟨⟨front ++ [some before], some marker, back, ?_, ?_⟩, rfl⟩
    · simp [← split]
    · rw [edge?_eq_some_iff, framesAfter_concat, current_advance_some, zero]
      exact ⟨marker, rfl, enters, readable, real, rfl⟩

/-- All edges of a text have lines from 1 on exactly when no marker enters a file directly
after a marker with line 0; and the edges of such markers have line 0. -/
theorem edges_line_pos_iff (unit : String) (text : List Char) :
    ((∀ edge ∈ edges unit text, 1 ≤ edge.location.line) ↔
      ¬ ∃ before marker, EntersAtZero unit before marker ∧
        [some before, some marker] <:+: (lines text).map Linemarker.parse?) ∧
    ∀ edge, edge ∈ edges unit text ∧ edge.location.line = 0 ↔
      ∃ before marker, EntersAtZero unit before marker ∧
        [some before, some marker] <:+: (lines text).map Linemarker.parse? ∧
        edge = edgeFrom ⟨before.file, 0⟩ marker := by
  refine ⟨?_, mem_edges_line_zero_iff unit text⟩
  simp only [one_le_iff_ne_zero]
  constructor
  · rintro positive ⟨before, marker, enters, found⟩
    obtain ⟨member, zero⟩ :=
      (mem_edges_line_zero_iff unit text _).mpr ⟨before, marker, enters, found, rfl⟩
    exact positive _ member zero
  · intro none edge member zero
    obtain ⟨before, marker, enters, found, -⟩ :=
      (mem_edges_line_zero_iff unit text edge).mp ⟨member, zero⟩
    exact none ⟨before, marker, enters, found⟩

/-! ## A directive that counts from 0 -/

/-- The preprocessed text of a unit with one header, whose first line says that it goes on at
line 0 of a grammar, and whose second line is an include. -/
def countedFromZero : List Char :=
  ("# 1 \"<stdin>\"\n# 1 \"/w/a.h\" 1\n# 0 \"gen.y\"\n# 1 \"/w/x.h\" 1\nint x;\n" ++
    "# 1 \"gen.y\" 2\n# 2 \"<stdin>\" 2\n").toList

/-- An edge may have line 0. -/
theorem edges_line_not_pos :
    ¬ ∀ unit text, ∀ edge ∈ edges unit text, 1 ≤ edge.location.line := by
  intro positive
  have found : ⟨"/w/x.h", "gen.y", ⟨"gen.y", 0, 0⟩⟩ ∈ edges "<stdin>" countedFromZero := by
    decide +kernel
  exact absurd (positive _ _ _ found) (by decide)

end IncludeGate.IncludeGraph
