import IncludeGate.Proofs.IncludeGraph.Reading

/-!
# Edges of any text

Text need not come from a preprocessor: files may be returned to that nobody entered, and
markers may stand anywhere.  Still every edge leads from the unit or a file to a file and
has the place of the includer, each edge belongs to a marker of its own, and edges that
have been found do not change with the text that follows.

All of this follows from what one line can give, whatever files are open before it.
-/

namespace IncludeGate.IncludeGraph

open Text

variable {unit : String} {frames : List Frame} {edge : IncludeEdge}

/-- A name in angle brackets. -/
def IsBracketed (name : String) : Prop :=
  ∃ inner, name.toList = '<' :: inner ++ ['>']

/-- The names that stand for no file are those in angle brackets. -/
theorem isPseudoFile_eq_false_iff {name : String} :
    isPseudoFile name = false ↔ ¬ IsBracketed name := by
  rw [← Bool.not_eq_true, isPseudoFile, Bool.and_eq_true, beq_iff_eq, beq_iff_eq,
    List.getLast?_eq_some_iff, IsBracketed]
  apply not_congr
  constructor
  · rintro ⟨first, front, last⟩
    rw [last] at first
    cases front with
    | nil => cases first
    | cons character inner =>
        cases first
        exact ⟨inner, last⟩
  · rintro ⟨inner, bracketed⟩
    rw [bracketed]
    exact ⟨rfl, '<' :: inner, rfl⟩

/-- What a line that gives an edge is, and which edge it gives. -/
theorem edge?_eq_some_iff {line : Option Linemarker} :
    edge? unit frames line = some edge ↔
      ∃ marker, line = some marker ∧ marker.entersFile = true ∧
        IsReadable unit (current unit frames).file ∧ isPseudoFile marker.file = false ∧
        edge = edgeFrom (current unit frames) marker := by
  cases line with
  | none =>
      constructor
      · intro given
        contradiction
      · rintro ⟨marker, none, -⟩
        contradiction
  | some marker =>
      rw [edge?_some, Option.ite_none_right_eq_some, Option.some.injEq]
      constructor
      · rintro ⟨⟨enters, readable, real⟩, rfl⟩
        exact ⟨marker, rfl, enters, readable, real, rfl⟩
      · rintro ⟨other, same, enters, readable, real, rfl⟩
        cases same
        exact ⟨⟨enters, readable, real⟩, rfl⟩

/-- An edge of several lines is one of the lines, given the files that the lines before it
leave open. -/
theorem mem_edgesFrom_iff {lines : List (Option Linemarker)} :
    edge ∈ edgesFrom unit frames lines ↔
      ∃ front line back, lines = front ++ line :: back ∧
        edge? unit (framesAfter frames front) line = some edge := by
  induction lines generalizing frames with
  | nil => simp [edgesFrom]
  | cons first rest ih =>
      rw [edgesFrom, List.mem_append, Option.mem_toList, ih]
      constructor
      · rintro (here | ⟨front, line, back, rfl, later⟩)
        · exact ⟨[], first, rest, rfl, here⟩
        · exact ⟨first :: front, line, back, rfl, later⟩
      · rintro ⟨front, line, back, split, gives⟩
        cases front with
        | nil =>
            cases split
            exact .inl gives
        | cons _ front =>
            cases split
            exact .inr ⟨front, line, back, rfl, gives⟩

/-- An edge leads from the unit or a file to a file, and its place is one of the includer. -/
structure IsPlaced (unit : String) (edge : IncludeEdge) : Prop where
  path : edge.location.path = edge.includer
  column : edge.location.column = 0
  included : ¬ IsBracketed edge.included
  includer : edge.includer = unit ∨ ¬ IsBracketed edge.includer

theorem isPlaced_of_edge? {line : Option Linemarker}
    (gives : edge? unit frames line = some edge) : IsPlaced unit edge := by
  obtain ⟨marker, -, -, readable, real, rfl⟩ := edge?_eq_some_iff.mp gives
  rw [IsReadable, isPseudoFile_eq_false_iff] at readable
  exact ⟨rfl, rfl, isPseudoFile_eq_false_iff.mp real, readable⟩

/-- The files that lines enter. -/
def enteredIn (lines : List (Option Linemarker)) : List String :=
  ((lines.filterMap id).filter Linemarker.entersFile).map Linemarker.file

/-- The files that the lines of a text enter. -/
def enteredFiles (text : List Char) : List String :=
  enteredIn ((lines text).map Linemarker.parse?)

theorem enteredIn_append (front back : List (Option Linemarker)) :
    enteredIn (front ++ back) = enteredIn front ++ enteredIn back := by
  simp [enteredIn]

/-- A line gives an edge only to the file that it enters. -/
theorem included_sublist_of_edge? (unit : String) (frames : List Frame)
    (line : Option Linemarker) :
    List.Sublist ((edge? unit frames line).toList.map (·.included)) (enteredIn [line]) := by
  cases given : edge? unit frames line with
  | none => exact List.nil_sublist _
  | some edge =>
      obtain ⟨marker, rfl, enters, -, -, rfl⟩ := edge?_eq_some_iff.mp given
      simp [enteredIn, enters, edgeFrom]

theorem included_sublist (unit : String) (frames : List Frame)
    (lines : List (Option Linemarker)) :
    List.Sublist ((edgesFrom unit frames lines).map (·.included)) (enteredIn lines) := by
  induction lines generalizing frames with
  | nil => exact List.Sublist.refl _
  | cons line rest ih =>
      rw [edgesFrom, List.map_append, ← List.singleton_append, enteredIn_append]
      exact (included_sublist_of_edge? unit frames line).append (ih _)

/-- More text after a whole line leaves the edges before it as they are. -/
theorem edges_prefix_append (unit : String) {text : List Char}
    (ended : text = [] ∨ text.getLast? = some '\n') (more : List Char) :
    edges unit text <+: edges unit (text ++ more) := by
  rw [edges, edges, lines_append ended, List.map_append, edgesFrom_append]
  exact List.prefix_append _ _

/-- Every edge of a text is placed; the edges lead to files that lines of the text enter, in
the order of these lines and at most once for each; and more text adds edges at the end. -/
theorem edges_invariant (unit : String) (text : List Char) :
    (∀ edge ∈ edges unit text, IsPlaced unit edge) ∧
      List.Sublist ((edges unit text).map (·.included)) (enteredFiles text) ∧
      ∀ more, (text = [] ∨ text.getLast? = some '\n') →
        edges unit text <+: edges unit (text ++ more) := by
  refine ⟨?_, included_sublist unit [] _, ?_⟩
  · intro edge member
    obtain ⟨front, line, back, -, gives⟩ := mem_edgesFrom_iff.mp member
    exact isPlaced_of_edge? gives
  · intro more ended
    exact edges_prefix_append unit ended more

/-- A return to a file that nobody entered, a marker that enters and returns, a number that is
too great, and a file that is entered from a pseudo file. -/
def strayMarkers : List Char :=
  ("# 2 \"/w/gone.h\" 2\n# 1 \"/w/a.h\" 1 2\n# 4294967296 \"/w/b.h\" 1\n" ++
    "# 3 \"<x>\" 2\n# 1 \"/w/c.h\" 1\n").toList

theorem edges_strayMarkers :
    edges "<stdin>" strayMarkers = [⟨"/w/a.h", "/w/gone.h", ⟨"/w/gone.h", 2, 0⟩⟩] ∧
      IsPlaced "<stdin>" ⟨"/w/a.h", "/w/gone.h", ⟨"/w/gone.h", 2, 0⟩⟩ ∧
      List.Sublist ["/w/a.h"] (enteredFiles strayMarkers) ∧
      strayMarkers.getLast? = some '\n' ∧
      ∀ more, [⟨"/w/a.h", "/w/gone.h", ⟨"/w/gone.h", 2, 0⟩⟩] <+:
        edges "<stdin>" (strayMarkers ++ more) := by
  have found : edges "<stdin>" strayMarkers =
      [⟨"/w/a.h", "/w/gone.h", ⟨"/w/gone.h", 2, 0⟩⟩] := by decide +kernel
  have ended : strayMarkers.getLast? = some '\n' := by decide
  obtain ⟨placed, entered, grows⟩ := edges_invariant "<stdin>" strayMarkers
  rw [found] at placed entered grows
  exact ⟨found, placed _ List.mem_cons_self, entered, ended, fun more => grows more (.inr ended)⟩

end IncludeGate.IncludeGraph
