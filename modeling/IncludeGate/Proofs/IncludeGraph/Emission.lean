import IncludeGate.Proofs.IncludeGraph.Reading

/-!
# Include trees recovered from preprocessed text

A source file is a list of lines, of which some include other files, so that a unit is
a tree of files.  A preprocessor prints the tree as one text: each line of a file in its
place, the text of a child between a marker that enters it and one that returns, and
anywhere a marker that says again where the file goes on.  Before the first line of a
unit it may name pseudo files and read headers on its own account.

The edges that are read from such a text are the edges of the tree, each with the line
of its directive, for every tree and whatever the preprocessor chooses to print.
-/

namespace IncludeGate.IncludeGraph

open Text

/-! ## Include trees -/

/-- A line of a source file: text, or a directive that includes a child with lines of
its own. -/
inductive SourceLine where
  | text (line : TextLine)
  | directive (child : FileName) (lines : List SourceLine)

/-- The edges of the lines of a file, from the line with the given number on.  The
edges of a child follow the edge to it. -/
def treeEdges : String → Nat → List SourceLine → List IncludeEdge
  | _, _, [] => []
  | file, number, .text _ :: rest => treeEdges file (number + 1) rest
  | file, number, .directive child lines :: rest =>
      ⟨child.text, file, ⟨file, UInt32.ofNat number, 0⟩⟩ ::
        (treeEdges child.text 1 lines ++ treeEdges file (number + 1) rest)

/-! ## Preprocessed text of a tree -/

/-- The preprocessed text of the lines of a file, from the line with the given number
on.  Between two lines the preprocessor may print any text if a marker afterwards says
where the file goes on. -/
inductive Emits : String → Nat → List SourceLine → List (List Char) → Prop where
  | done {file : String} {number : Nat} : Emits file number [] []
  | text {file : String} {number : Nat} {line : TextLine} {rest : List SourceLine}
      {output : List (List Char)} :
      Emits file (number + 1) rest output →
      Emits file number (.text line :: rest) (line.characters :: output)
  | directive {file : String} {number : Nat} {child : FileName}
      {lines rest : List SourceLine} {enter back : List Char}
      {inner output : List (List Char)} {entering leaving : List Remark} :
      (marker .enter 1 child.text entering).WrittenAs enter →
      Emits child.text 1 lines inner →
      (marker .leave (.ofNat (number + 1)) file leaving).WrittenAs back →
      number + 1 < UInt32.size →
      Emits file (number + 1) rest output →
      Emits file number (.directive child lines :: rest) (enter :: inner ++ back :: output)
  | resync {file : String} {number : Nat} {lines : List SourceLine} {resync : List Char}
      {output : List (List Char)} {remarks : List Remark} (fillers : List TextLine) :
      (marker .stay (.ofNat number) file remarks).WrittenAs resync →
      number < UInt32.size →
      Emits file number lines output →
      Emits file number lines (fillers.map TextLine.characters ++ resync :: output)

/-- The lines between the first marker of a unit and its first line, given the file
that is being read.  Pseudo files come and go; files without includes are entered from
them and left again; and at last the first line of the unit is the next one. -/
inductive Preamble (unit : String) : String → List (List Char) → Prop where
  | finish {current : String} {move : Move} {last : List Char} {remarks : List Remark} :
      isPseudoFile unit = true ∨ move ≠ .enter →
      (marker move 1 unit remarks).WrittenAs last →
      Preamble unit current [last]
  | pseudo {current name : String} {move : Move} {line : UInt32} {change : List Char}
      {rest : List (List Char)} {remarks : List Remark} :
      isPseudoFile name = true →
      (marker move line name remarks).WrittenAs change →
      Preamble unit name rest →
      Preamble unit current (change :: rest)
  | preInclude {current : String} {line : UInt32} {file : FileName} {lines : List TextLine}
      {enter back : List Char} {inner rest : List (List Char)}
      {entering leaving : List Remark} :
      IsPseudo unit current →
      (marker .enter 1 file.text entering).WrittenAs enter →
      Emits file.text 1 (lines.map .text) inner →
      (marker .leave line current leaving).WrittenAs back →
      Preamble unit current rest →
      Preamble unit current (enter :: inner ++ back :: rest)

/-- The preprocessed text of a unit, as the list of its lines. -/
inductive UnitOutput (unit : String) (lines : List SourceLine) : List (List Char) → Prop where
  | direct {start : List Char} {output : List (List Char)} {remarks : List Remark} :
      (marker .stay 1 unit remarks).WrittenAs start →
      Emits unit 1 lines output →
      UnitOutput unit lines (start :: output)
  | withPreamble {line : UInt32} {start : List Char} {preamble output : List (List Char)}
      {remarks : List Remark} :
      (marker .stay line unit remarks).WrittenAs start →
      Preamble unit unit preamble →
      Emits unit 1 lines output →
      UnitOutput unit lines (start :: preamble ++ output)

/-! ## Reading trees -/

/-- The edges of a file are found in its preprocessed text, and the files that are open
around it stay open. -/
theorem Emits.reads {file : String} {number : Nat} {lines : List SourceLine}
    {output : List (List Char)} (emitted : Emits file number lines output)
    {unit : String} (readable : IsReadable unit file) (below : List Frame) :
    ∃ last, Reads unit (⟨file, counter number⟩ :: below) output
      (treeEdges file number lines) (⟨file, last⟩ :: below) := by
  induction emitted generalizing below with
  | done =>
      rw [treeEdges]
      exact ⟨_, .nil⟩
  | @text file number line rest output _ ih =>
      obtain ⟨last, reads⟩ := ih readable below
      rw [← lineAfter_counter] at reads
      rw [treeEdges]
      exact ⟨last, (Reads.text line _ below).append reads⟩
  | @directive file number child lines rest enter back inner output entering leaving
      enters _ leaves fits _ innerIH restIH =>
      -- The child is read on top of its includer, which is as it was until the return.
      let includer : Frame := ⟨file, counter number⟩
      have counted : counter number = UInt32.ofNat number := counter_of_lt (Nat.lt_of_succ_lt fits)
      obtain ⟨childLast, childReads⟩ := innerIH (Or.inr child.real) (includer :: below)
      obtain ⟨last, restReads⟩ := restIH readable below
      rw [counter_of_lt fits] at restReads
      have start : Reads unit (includer :: below) [enter] _ _ := .enter enters readable
      have finish : Reads unit (⟨child.text, childLast⟩ :: includer :: below) [back] [] _ :=
        .leave leaves
      have whole := start.append (childReads.append (finish.append restReads))
      refine ⟨last, ?_⟩
      rw [treeEdges, ← counted]
      simpa using whole
  | @resync file number lines resync output remarks fillers written fits _ ih =>
      obtain ⟨line, fillerReads⟩ := Reads.texts fillers ⟨file, counter number⟩ below
      obtain ⟨last, reads⟩ := ih readable below
      rw [counter_of_lt fits] at reads
      have back : Reads unit (⟨file, line⟩ :: below) [resync] [] _ := .stay written
      exact ⟨last, fillerReads.append (back.append reads)⟩

theorem treeEdges_texts (file : String) (number : Nat) (lines : List TextLine) :
    treeEdges file number (lines.map .text) = [] := by
  induction lines generalizing number with
  | nil => rw [List.map_nil, treeEdges]
  | cons line lines ih => rw [List.map_cons, treeEdges, ih]

/-! ## Before the first line -/

section Opening

variable {unit name : String} {move : Move} {line : UInt32} {written : List Char}
variable {remarks : List Remark}

/-- The marker at the end of what stands before a unit gives no edge. -/
theorem Reads.finish (noEdge : isPseudoFile unit = true ∨ move ≠ .enter)
    (last : (marker move 1 unit remarks).WrittenAs written) (frames : List Frame) :
    ∃ below, Reads unit frames [written] [] (⟨unit, 1⟩ :: below) := by
  obtain ⟨below, moves⟩ := advance_some frames (marker move 1 unit remarks)
  refine ⟨below, .single last.oneLine last.parse? ?_ moves⟩
  cases noEdge with
  | inl pseudo =>
      rw [edge?_to_pseudo pseudo]
      rfl
  | inr noEntry =>
      rw [edge?_of_ne_enter noEntry]
      rfl

/-- No marker of a pseudo file gives an edge. -/
theorem Reads.pseudo (pseudo : isPseudoFile name = true)
    (change : (marker move line name remarks).WrittenAs written) (frames : List Frame) :
    ∃ below, Reads unit frames [written] [] (⟨name, line⟩ :: below) := by
  obtain ⟨below, moves⟩ := advance_some frames (marker move line name remarks)
  exact ⟨below, .single change.oneLine change.parse? (by rw [edge?_to_pseudo pseudo]; rfl) moves⟩

/-- A file that is entered from a pseudo file gives no edge to itself, only those that are
found in it. -/
theorem Reads.preInclude {current : String} {file : FileName} {lines : List SourceLine}
    {enter back : List Char} {inner : List (List Char)} {entering leaving : List Remark}
    (pseudo : IsPseudo unit current)
    (enters : (marker .enter 1 file.text entering).WrittenAs enter)
    (emitted : Emits file.text 1 lines inner)
    (leaves : (marker .leave line current leaving).WrittenAs back)
    (reached : UInt32) (below : List Frame) :
    Reads unit (⟨current, reached⟩ :: below) (enter :: inner ++ [back])
      (treeEdges file.text 1 lines) (⟨current, line⟩ :: below) := by
  let outer : Frame := ⟨current, reached⟩
  have start : Reads unit (outer :: below) [enter] [] (⟨file.text, 1⟩ :: outer :: below) :=
    .single enters.oneLine enters.parse? (by rw [edge?_from_pseudo pseudo]; rfl) advance_enter
  obtain ⟨last, reads⟩ := emitted.reads (Or.inr file.real) (outer :: below)
  have finish : Reads unit (⟨file.text, last⟩ :: outer :: below) [back] [] _ := .leave leaves
  simpa using start.append (reads.append finish)

end Opening

/-- Nothing is found in what stands before the first line of a unit. -/
theorem Preamble.reads {unit current : String} {output : List (List Char)}
    (preamble : Preamble unit current output) (reached : UInt32) (below : List Frame) :
    ∃ below', Reads unit (⟨current, reached⟩ :: below) output [] (⟨unit, 1⟩ :: below') := by
  induction preamble generalizing reached below with
  | finish noEdge written => exact Reads.finish noEdge written _
  | @pseudo current name move line change rest remarks pseudo written _ ih =>
      obtain ⟨between, first⟩ := Reads.pseudo pseudo written (⟨current, reached⟩ :: below)
      obtain ⟨below', reads⟩ := ih line between
      exact ⟨below', first.append reads⟩
  | @preInclude current line file lines enter back inner rest entering leaving
      pseudo enters leaf leaves _ ih =>
      have first := Reads.preInclude pseudo enters leaf leaves reached below
      rw [treeEdges_texts] at first
      obtain ⟨below', reads⟩ := ih line below
      exact ⟨below', by simpa using first.append reads⟩

theorem UnitOutput.reads {unit : String} {lines : List SourceLine}
    {output : List (List Char)} (emitted : UnitOutput unit lines output) :
    ∃ after, Reads unit [] output (treeEdges unit 1 lines) after := by
  cases emitted with
  | @direct start output remarks written body =>
      obtain ⟨last, reads⟩ := body.reads (Or.inl rfl) []
      exact ⟨_, (Reads.start written).append reads⟩
  | @withPreamble line start preamble output remarks written opening body =>
      obtain ⟨below, openingReads⟩ := opening.reads line []
      obtain ⟨last, reads⟩ := body.reads (Or.inl rfl) below
      exact ⟨_, by simpa using (Reads.start written).append (openingReads.append reads)⟩

/-- What is found line by line is found in the text of the lines. -/
theorem Reads.edges_unlines {unit : String} {output : List (List Char)}
    {found : List IncludeEdge} {after : List Frame} (reads : Reads unit [] output found after) :
    IncludeGraph.edges unit (unlines output) = found := by
  have unseen : Linemarker.parse? ∘ dropReturn = Linemarker.parse? :=
    funext Linemarker.parse?_dropReturn
  rw [IncludeGraph.edges, lines_unlines reads.oneLine, List.map_map, unseen, reads.edges]

/-- The edges of preprocessed text are the edges of the include tree that the text was
made from. -/
theorem edges_unlines_eq_treeEdges {unit : String} {lines : List SourceLine}
    {output : List (List Char)} (emitted : UnitOutput unit lines output) :
    edges unit (unlines output) = treeEdges unit 1 lines := by
  obtain ⟨after, reads⟩ := emitted.reads
  exact reads.edges_unlines

/-- A header with a guard, a blank line and an include of its own. -/
def guardedHeader : List SourceLine :=
  [.text ⟨"#pragma once".toList, by decide, by decide⟩, .text ⟨[], by decide, by decide⟩,
    .directive ⟨"/w/say \"hi\".h", by decide⟩ [.text ⟨"int x;".toList, by decide, by decide⟩]]

/-- The preprocessed text of the header.  It is named again before its include. -/
def guardedHeaderText : List (List Char) :=
  ["#pragma once".toList, [], (marker .stay 3 "/w/a.h" []).print,
    (marker .enter 1 "/w/say \"hi\".h" []).print, "int x;".toList,
    (marker .leave 4 "/w/a.h" []).print]

theorem emits_guardedHeader : Emits "/w/a.h" 1 guardedHeader guardedHeaderText := by
  have printed := Linemarker.writtenAs_print
  refine .text (.text (.resync [] (printed (marker .stay 3 "/w/a.h" [])) (by decide) ?_))
  exact .directive (printed (marker .enter 1 "/w/say \"hi\".h" [])) (.text .done)
    (printed (marker .leave 4 "/w/a.h" [])) (by decide) .done

/-- A unit that includes the header. -/
def guardedUnit : List SourceLine :=
  [.directive ⟨"/w/a.h", by decide⟩ guardedHeader]

/-- The lines before the unit: the compiler includes a header on its own account. -/
def predefinedText : List (List Char) :=
  [(marker .stay 0 "<command-line>" []).print,
    (marker .enter 1 "/usr/include/stdc-predef.h" [.systemHeader, .foreignLinkage]).print,
    (marker .leave 0 "<command-line>" []).print, (marker .stay 1 "<stdin>" []).print]

theorem preamble_predefinedText : Preamble "<stdin>" "<stdin>" predefinedText := by
  have printed := Linemarker.writtenAs_print
  have pseudo : IsPseudo "<stdin>" "<command-line>" := ⟨by decide, by decide⟩
  let predefined : FileName := ⟨"/usr/include/stdc-predef.h", by decide⟩
  let noLines : List TextLine := []
  have finish : Preamble "<stdin>" "<command-line>" [(marker .stay 1 "<stdin>" []).print] :=
    .finish (.inl (by decide)) (printed _)
  have leaf : Emits predefined.text 1 (noLines.map .text) [] := .done
  have entered := Preamble.preInclude pseudo
    (printed (marker .enter 1 predefined.text [.systemHeader, .foreignLinkage])) leaf
    (printed (marker .leave 0 "<command-line>" [])) finish
  exact .pseudo pseudo.1 (printed (marker .stay 0 "<command-line>" [])) entered

/-- The preprocessed text of the unit. -/
def guardedUnitText : List (List Char) :=
  (marker .stay 0 "<stdin>" []).print :: predefinedText ++
    ((marker .enter 1 "/w/a.h" []).print :: guardedHeaderText ++
      [(marker .leave 2 "<stdin>" []).print])

theorem edges_guardedUnitText :
    UnitOutput "<stdin>" guardedUnit guardedUnitText ∧
      edges "<stdin>" (unlines guardedUnitText) =
        [⟨"/w/a.h", "<stdin>", ⟨"<stdin>", 1, 0⟩⟩,
          ⟨"/w/say \"hi\".h", "/w/a.h", ⟨"/w/a.h", 3, 0⟩⟩] := by
  have printed := Linemarker.writtenAs_print
  have body : Emits "<stdin>" 1 guardedUnit ((marker .enter 1 "/w/a.h" []).print ::
      guardedHeaderText ++ [(marker .leave 2 "<stdin>" []).print]) :=
    .directive (printed _) emits_guardedHeader (printed (marker .leave 2 "<stdin>" []))
      (by decide) .done
  have emitted : UnitOutput "<stdin>" guardedUnit guardedUnitText :=
    .withPreamble (printed _) preamble_predefinedText body
  refine ⟨emitted, (edges_unlines_eq_treeEdges emitted).trans ?_⟩
  simp [guardedUnit, guardedHeader, treeEdges]

end IncludeGate.IncludeGraph
