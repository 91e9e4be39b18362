import IncludeGate.Proofs.IncludeGraph.Emission

/-!
# Headers that a compiler reads on its own account

Before the first line of a unit a compiler may read headers that no line of the unit asks
for, and these may include others to any depth.  Such a header is entered from a pseudo
file and therefore gives no edge to itself.  What it includes, however, is entered from a
file like any other, so the edges of its own tree stand before those of the unit.  The
graph is that of the unit alone exactly when none of these headers includes anything.
-/

namespace IncludeGate.IncludeGraph

open Text

/-- A header that is read before a unit, with its lines. -/
structure PreInclude where
  file : FileName
  lines : List SourceLine

/-- The edges of what a header includes. -/
def PreInclude.edges (header : PreInclude) : List IncludeEdge :=
  treeEdges header.file.text 1 header.lines

/-- The lines between the first marker of a unit and its first line, given the file that is
being read and the headers that are read on the way, each with all that it includes. -/
inductive Opening (unit : String) : String → List PreInclude → List (List Char) → Prop where
  | finish {current : String} {move : Move} {last : List Char} {remarks : List Remark} :
      isPseudoFile unit = true ∨ move ≠ .enter →
      (marker move 1 unit remarks).WrittenAs last →
      Opening unit current [] [last]
  | pseudo {current name : String} {move : Move} {line : UInt32} {change : List Char}
      {headers : List PreInclude} {rest : List (List Char)} {remarks : List Remark} :
      isPseudoFile name = true →
      (marker move line name remarks).WrittenAs change →
      Opening unit name headers rest →
      Opening unit current headers (change :: rest)
  | preInclude {current : String} {line : UInt32} {header : PreInclude}
      {headers : List PreInclude} {enter back : List Char} {inner rest : List (List Char)}
      {entering leaving : List Remark} :
      IsPseudo unit current →
      (marker .enter 1 header.file.text entering).WrittenAs enter →
      Emits header.file.text 1 header.lines inner →
      (marker .leave line current leaving).WrittenAs back →
      Opening unit current headers rest →
      Opening unit current (header :: headers) (enter :: inner ++ back :: rest)

/-- The preprocessed text of a unit, as the list of its lines, when headers are read before
it. -/
inductive OpenedOutput (unit : String) (headers : List PreInclude) (lines : List SourceLine) :
    List (List Char) → Prop where
  | opened {line : UInt32} {start : List Char} {opening output : List (List Char)}
      {remarks : List Remark} :
      (marker .stay line unit remarks).WrittenAs start →
      Opening unit unit headers opening →
      Emits unit 1 lines output →
      OpenedOutput unit headers lines (start :: opening ++ output)

/-! ## Reading -/

/-- Before the first line of a unit the edges of the headers that are read there are found,
but none to these headers. -/
theorem Opening.reads {unit current : String} {headers : List PreInclude}
    {output : List (List Char)} (opening : Opening unit current headers output)
    (reached : UInt32) (below : List Frame) :
    ∃ below', Reads unit (⟨current, reached⟩ :: below) output
      (headers.flatMap PreInclude.edges) (⟨unit, 1⟩ :: below') := by
  -- Markers of pseudo files may leave any frames behind; only the current one matters.
  induction opening generalizing reached below with
  | finish noEdge written => exact Reads.finish noEdge written _
  | @pseudo current name move line change headers rest remarks pseudo written _ ih =>
      obtain ⟨between, first⟩ := Reads.pseudo pseudo written (⟨current, reached⟩ :: below)
      obtain ⟨below', reads⟩ := ih line between
      exact ⟨below', first.append reads⟩
  | @preInclude current line header headers enter back inner rest entering leaving
      pseudo enters tree leaves _ ih =>
      have first := Reads.preInclude pseudo enters tree leaves reached below
      obtain ⟨below', reads⟩ := ih line below
      refine ⟨below', ?_⟩
      rw [List.flatMap_cons, PreInclude.edges]
      simpa using first.append reads

theorem OpenedOutput.reads {unit : String} {headers : List PreInclude}
    {lines : List SourceLine} {output : List (List Char)}
    (opened : OpenedOutput unit headers lines output) :
    ∃ after, Reads unit [] output
      (headers.flatMap PreInclude.edges ++ treeEdges unit 1 lines) after := by
  cases opened with
  | @opened line start opening output remarks written opening body =>
      obtain ⟨below, openingReads⟩ := opening.reads line []
      obtain ⟨last, reads⟩ := body.reads (Or.inl rfl) below
      exact ⟨_, by simpa using (Reads.start written).append (openingReads.append reads)⟩

theorem OpenedOutput.edges_eq {unit : String} {headers : List PreInclude}
    {lines : List SourceLine} {output : List (List Char)}
    (opened : OpenedOutput unit headers lines output) :
    edges unit (unlines output) =
      headers.flatMap PreInclude.edges ++ treeEdges unit 1 lines := by
  obtain ⟨after, reads⟩ := opened.reads
  exact reads.edges_unlines

/-! ## Edges without includes -/

theorem treeEdges_eq_nil_iff {file : String} {number : Nat} {lines : List SourceLine} :
    treeEdges file number lines = [] ↔ ∀ child inner, .directive child inner ∉ lines := by
  induction lines generalizing number with
  | nil => simp [treeEdges]
  | cons line rest ih =>
      cases line with
      | text line => simp [treeEdges, ih]
      | directive child lines =>
          rw [treeEdges]
          constructor
          · intro empty
            exact absurd empty (List.cons_ne_nil _ _)
          · intro none
            exact absurd List.mem_cons_self (none child lines)

/-! ## Where edges go out from -/

/-- Each edge goes out from one of the given files or from one that an edge before it leads
to. -/
def Grounded : List String → List IncludeEdge → Prop
  | _, [] => True
  | files, edge :: rest => edge.includer ∈ files ∧ Grounded (edge.included :: files) rest

theorem Grounded.mono {files others : List String} {edges : List IncludeEdge}
    (more : ∀ file ∈ files, file ∈ others) (grounded : Grounded files edges) :
    Grounded others edges := by
  induction edges generalizing files others with
  | nil => trivial
  | cons edge rest ih =>
      obtain ⟨known, restGrounded⟩ := grounded
      refine ⟨more _ known, ih ?_ restGrounded⟩
      intro file member
      rcases List.mem_cons.mp member with rfl | member
      · exact List.mem_cons_self
      · exact List.mem_cons_of_mem _ (more file member)

theorem Grounded.append {files : List String} {first second : List IncludeEdge}
    (firstGrounded : Grounded files first) (secondGrounded : Grounded files second) :
    Grounded files (first ++ second) := by
  induction first generalizing files with
  | nil => exact secondGrounded
  | cons edge rest ih =>
      obtain ⟨known, restGrounded⟩ := firstGrounded
      exact ⟨known, ih restGrounded (secondGrounded.mono fun _ => List.mem_cons_of_mem _)⟩

/-- The edges of a tree go out from its root and from the files in it. -/
theorem grounded_treeEdges {files : List String} {file : String} (known : file ∈ files)
    (number : Nat) (lines : List SourceLine) : Grounded files (treeEdges file number lines) := by
  fun_induction treeEdges file number lines generalizing files with
  | case1 => trivial
  | case2 file number line rest ih => exact ih known
  | case3 file number child lines rest innerIH restIH =>
      refine ⟨known, Grounded.append (innerIH List.mem_cons_self) (restIH ?_)⟩
      exact List.mem_cons_of_mem _ known

theorem grounded_flatMap {files : List String} {headers : List PreInclude}
    (known : ∀ header ∈ headers, header.file.text ∈ files) :
    Grounded files (headers.flatMap PreInclude.edges) := by
  induction headers with
  | nil => trivial
  | cons header headers ih =>
      obtain ⟨first, others⟩ := List.forall_mem_cons.mp known
      rw [List.flatMap_cons]
      exact (grounded_treeEdges first 1 header.lines).append (ih others)

/-- Headers that are read before a unit give no edge to themselves, but those of all that
they include come before the edges of the unit. -/
theorem edges_unlines_of_opened {unit : String} {headers : List PreInclude}
    {lines : List SourceLine} {output : List (List Char)}
    (opened : OpenedOutput unit headers lines output) :
    edges unit (unlines output) =
      headers.flatMap PreInclude.edges ++ treeEdges unit 1 lines ∧
    (edges unit (unlines output) = treeEdges unit 1 lines ↔
      ∀ header ∈ headers, ∀ child inner, .directive child inner ∉ header.lines) ∧
    Grounded (unit :: headers.map (·.file.text)) (edges unit (unlines output)) := by
  rw [opened.edges_eq]
  refine ⟨rfl, ?_, ?_⟩
  · rw [List.append_left_eq_self, List.flatMap_eq_nil_iff]
    simp only [PreInclude.edges, treeEdges_eq_nil_iff]
  · apply Grounded.append
    · apply grounded_flatMap
      intro header member
      exact List.mem_cons_of_mem _ (List.mem_map.mpr ⟨header, member, rfl⟩)
    · exact grounded_treeEdges List.mem_cons_self 1 lines

/-! ## A header that includes another one before the unit -/

/-- A header of the system that is read before every unit and includes another one. -/
def predefinedHeader : PreInclude :=
  ⟨⟨"/usr/include/stdc-predef.h", by decide⟩,
    [.directive ⟨"/usr/include/bits/predef.h", by decide⟩ []]⟩

def predefinedLines : List (List Char) :=
  [(marker .enter 1 "/usr/include/bits/predef.h" [.systemHeader, .foreignLinkage]).print,
    (marker .leave 2 "/usr/include/stdc-predef.h" [.systemHeader, .foreignLinkage]).print]

def openingLines : List (List Char) :=
  (marker .stay 0 "<command-line>" []).print ::
    ((marker .enter 1 "/usr/include/stdc-predef.h" [.systemHeader, .foreignLinkage]).print ::
      predefinedLines ++ [(marker .leave 0 "<command-line>" []).print,
        (marker .stay 1 "<stdin>" []).print])

/-- A unit of one line, which includes a header without includes. -/
def leafUnit : List SourceLine :=
  [.directive ⟨"/w/plain.h", by decide⟩ []]

/-- The preprocessed text of the unit. -/
def leafUnitText : List (List Char) :=
  (marker .stay 0 "<stdin>" []).print :: openingLines ++
    [(marker .enter 1 "/w/plain.h" []).print, (marker .leave 2 "<stdin>" []).print]

theorem opening_openingLines :
    Opening "<stdin>" "<stdin>" [predefinedHeader] openingLines := by
  have printed := Linemarker.writtenAs_print
  have pseudo : IsPseudo "<stdin>" "<command-line>" := ⟨by decide, by decide⟩
  have tree : Emits predefinedHeader.file.text 1 predefinedHeader.lines predefinedLines :=
    .directive (printed _) .done (printed _) (by decide) .done
  exact .pseudo pseudo.1 (printed _) (.preInclude pseudo (printed _) tree (printed _)
    (.finish (.inl (by decide)) (printed (marker .stay 1 "<stdin>" []))))

theorem openedOutput_leafUnitText :
    OpenedOutput "<stdin>" [predefinedHeader] leafUnit leafUnitText := by
  have printed := Linemarker.writtenAs_print
  have body : Emits "<stdin>" 1 leafUnit
      [(marker .enter 1 "/w/plain.h" []).print, (marker .leave 2 "<stdin>" []).print] :=
    .directive (printed _) .done (printed _) (by decide) .done
  exact .opened (printed _) opening_openingLines body

theorem edges_leafUnitText :
    OpenedOutput "<stdin>" [predefinedHeader] leafUnit leafUnitText ∧
      edges "<stdin>" (unlines leafUnitText) =
        [⟨"/usr/include/bits/predef.h", "/usr/include/stdc-predef.h",
            ⟨"/usr/include/stdc-predef.h", 1, 0⟩⟩,
          ⟨"/w/plain.h", "<stdin>", ⟨"<stdin>", 1, 0⟩⟩] := by
  have opened := openedOutput_leafUnitText
  refine ⟨opened, (edges_unlines_of_opened opened).1.trans ?_⟩
  simp [PreInclude.edges, predefinedHeader, leafUnit, treeEdges]

/-- A header that is read before the unit is part of the graph if it includes another. -/
theorem edges_unlines_ne_treeEdges :
    ¬ ∀ unit headers lines output, OpenedOutput unit headers lines output →
      edges unit (unlines output) = treeEdges unit 1 lines := by
  intro alone
  have same := alone _ _ _ _ openedOutput_leafUnitText
  rw [openedOutput_leafUnitText.edges_eq] at same
  simp [PreInclude.edges, predefinedHeader, leafUnit, treeEdges] at same

end IncludeGate.IncludeGraph
