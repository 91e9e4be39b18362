import IncludeGate.DirectiveColumn
import IncludeGate.FileSystem
import IncludeGate.Proofs.Text.Utf8
import IncludeGate.Proofs.Text.Words
import Mathlib.Data.List.Forall2

/-!
# The columns that are filled in

The column of a directive is looked up in the source of its includer, and the lines of every
source are kept for the edges that follow.  What is kept of a source is always what looking it
up would give, so each edge gets the column that it would get on its own: that of the `#` on
its line, or 1 where there is no such line or no directive on it.
-/

namespace IncludeGate.DirectiveColumn

open Text

/-! ## Sources that are kept -/

/-- What is kept is what looking it up gives. -/
def IsUpToDate (source : String → SourceLines) (kept : List (String × SourceLines)) : Prop :=
  ∀ entry ∈ kept, entry.2 = source entry.1

variable {source : String → SourceLines} {kept : List (String × SourceLines)}

theorem isUpToDate_nil : IsUpToDate source [] := by
  intro entry member
  contradiction

/-- Looking up a source gives that source, whether it is kept or not. -/
theorem lookUp_fst (upToDate : IsUpToDate source kept) (includer : String) :
    (lookUp source kept includer).1 = source includer := by
  rw [lookUp]
  cases found : kept.find? (·.1 = includer) with
  | none => rfl
  | some entry =>
      have name : entry.1 = includer := by simpa using List.find?_some found
      exact (upToDate entry (List.mem_of_find?_eq_some found)).trans (congrArg source name)

/-- Looking up a source keeps nothing else than that source. -/
theorem isUpToDate_lookUp (upToDate : IsUpToDate source kept) (includer : String) :
    IsUpToDate source (lookUp source kept includer).2 := by
  rw [lookUp]
  cases kept.find? (·.1 = includer) with
  | none => exact List.forall_mem_cons.mpr ⟨rfl, upToDate⟩
  | some entry => exact upToDate

theorem fillFrom_eq_map (upToDate : IsUpToDate source kept) (edges : List IncludeEdge) :
    fillFrom source kept edges = edges.map fun edge =>
      withColumn edge (inSource (source edge.includer) edge.location.line) := by
  induction edges generalizing kept with
  | nil => rfl
  | cons edge edges ih =>
      have rest := ih (isUpToDate_lookUp upToDate edge.includer)
      rw [fillFrom, List.map_cons, ← rest, ← lookUp_fst upToDate]

/-! ## Columns on a line -/

/-- A directive stands on a line of a source, the lines counted from 1, with nothing but blanks
before it. -/
def HasDirective (text : Option (List Char)) (line : Nat) (blanks : List Char) : Prop :=
  ∃ source number rest, text = some source ∧ line = number + 1 ∧
    (lines source)[number]? = some (blanks ++ '#' :: rest) ∧ IsGap blanks

theorem onLine?_directive {blanks : List Char} (isGap : IsGap blanks) (rest : List Char) :
    onLine? (blanks ++ '#' :: rest) = some (UInt32.ofNat (Utf8.encode blanks).length + 1) := by
  have stops : ∀ character ∈ ('#' :: rest).head?, isBlank character = false := by
    intro character first
    cases first
    decide
  obtain ⟨before, after⟩ := span_append isGap stops
  rw [onLine?, trimStart, before, after]
  exact if_pos rfl

theorem exists_directive_of_onLine? {line : List Char} {column : UInt32}
    (here : onLine? line = some column) :
    ∃ blanks rest, line = blanks ++ '#' :: rest ∧ IsGap blanks := by
  rw [onLine?, Option.ite_none_right_eq_some] at here
  obtain ⟨rest, solid⟩ := List.head?_eq_some_iff.mp here.1
  refine ⟨line.takeWhile isBlank, rest, ?_, isGap_takeWhile line⟩
  rw [← solid]
  exact List.takeWhile_append_dropWhile.symm

variable {text : Option (List Char)} {line : UInt32}

theorem inSource_succ {source : List (List Char)} {number : Nat}
    (position : line.toNat = number + 1) :
    inSource (some source) line = (source[number]?.bind onLine?).getD 1 := by
  unfold inSource
  rw [position]

theorem inSource_of_directive {blanks : List Char}
    (directive : HasDirective text line.toNat blanks) :
    inSource (text.map lines) line = UInt32.ofNat (Utf8.encode blanks).length + 1 := by
  obtain ⟨source, number, rest, rfl, position, here, isGap⟩ := directive
  rw [Option.map_some, inSource_succ position, here, Option.bind_some, onLine?_directive isGap rest,
    Option.getD_some]

theorem inSource_of_no_directive
    (noDirective : ∀ blanks, ¬ HasDirective text line.toNat blanks) :
    inSource (text.map lines) line = 1 := by
  cases text with
  | none => rfl
  | some source =>
      cases position : line.toNat with
      | zero =>
          unfold inSource
          rw [position]
          rfl
      | succ number =>
          rw [Option.map_some, inSource_succ position]
          cases here : (lines source)[number]? with
          | none => rfl
          | some found =>
              rw [Option.bind_some]
              cases column : onLine? found with
              | none => rfl
              | some column =>
                  obtain ⟨blanks, rest, rfl, isGap⟩ := exists_directive_of_onLine? column
                  exact absurd ⟨source, number, rest, rfl, position, here, isGap⟩
                    (noDirective blanks)

/-! ## Edges with their columns -/

/-- The text of an includer: that of the unit itself, or else of a file, if that can be read
and is UTF-8. -/
def sourceText (unit : SyntheticUnit) (system : FileSystem) (includer : String) :
    Option (List Char) :=
  if includer = unit.name then some unit.source.toList
  else (system.readBytes includer).toOption.bind Utf8.decode?

/-- Of an edge nothing but the column is filled in: that of the directive, counted in octets
from 1, or 1 where there is none. -/
structure IsFilled (text : Option (List Char)) (edge filled : IncludeEdge) : Prop where
  onlyColumn : ∃ column, filled = withColumn edge column
  directive : ∀ blanks, HasDirective text edge.location.line.toNat blanks →
    filled.location.column.toNat = 1 + (Utf8.encode blanks).length
  noDirective : (∀ blanks, ¬ HasDirective text edge.location.line.toNat blanks) →
    filled.location.column = 1

theorem toOption_readText (system : FileSystem) (path : String) :
    (system.readText path).toOption = (system.readBytes path).toOption.bind Utf8.decode? := by
  unfold FileSystem.readText
  cases system.readBytes path with
  | error error => rfl
  | ok content =>
      cases decoded : Utf8.decode? content <;>
        simp [bind, Except.bind, Except.toOption, decoded]

theorem sourceOf_eq_map (unit : SyntheticUnit) (system : FileSystem) (includer : String) :
    sourceOf unit (fun path => (system.readText path).toOption) includer =
      (sourceText unit system includer).map lines := by
  unfold sourceOf sourceText
  split
  · rfl
  · exact congrArg (Option.map lines) (toOption_readText system includer)

/-- A column fits into its number if the line is not too long. -/
theorem toNat_column {blanks rest : List Char}
    (short : (Utf8.encode (blanks ++ '#' :: rest)).length < 2 ^ 32 - 1) :
    (UInt32.ofNat (Utf8.encode blanks).length + 1).toNat = 1 + (Utf8.encode blanks).length := by
  rw [Utf8.encode_append, List.length_append] at short
  rw [UInt32.toNat_add, UInt32.toNat_ofNat_of_lt' (by simp [UInt32.size]; omega)]
  simp
  omega

theorem isFilled_withColumn {text : Option (List Char)} {edge : IncludeEdge}
    (short : ∀ source ∈ text, ∀ line ∈ lines source,
      (Utf8.encode line).length < 2 ^ 32 - 1) :
    IsFilled text edge
      (withColumn edge (inSource (text.map lines) edge.location.line)) where
  onlyColumn := ⟨_, rfl⟩
  directive := by
    intro blanks directive
    obtain ⟨source, number, rest, isSource, -, here, -⟩ := id directive
    have column := inSource_of_directive directive
    have fits := short source isSource _ (List.mem_of_getElem? here)
    exact (congrArg UInt32.toNat column).trans (toNat_column fits)
  noDirective := inSource_of_no_directive

theorem one_le_column {text : Option (List Char)} {edge filled : IncludeEdge}
    (isFilled : IsFilled text edge filled) : 1 ≤ filled.location.column.toNat := by
  by_cases directive : ∃ blanks, HasDirective text edge.location.line.toNat blanks
  · obtain ⟨blanks, here⟩ := directive
    rw [isFilled.directive blanks here]
    exact Nat.le_add_right _ _
  · rw [isFilled.noDirective (not_exists.mp directive)]
    decide

variable {unit : SyntheticUnit} {system : FileSystem} {edges : List IncludeEdge}

theorem fill_eq_map (unit : SyntheticUnit) (system : FileSystem) (edges : List IncludeEdge) :
    fill unit (fun path => (system.readText path).toOption) edges = edges.map fun edge =>
      withColumn edge
        (inSource ((sourceText unit system edge.includer).map lines) edge.location.line) := by
  unfold fill
  rw [fillFrom_eq_map isUpToDate_nil]
  simp only [sourceOf_eq_map]

/-- Columns are filled in for all edges as they would be for each of them alone, from the text
of its includer. -/
theorem fill_isFilled
    (short : ∀ edge ∈ edges, ∀ source ∈ sourceText unit system edge.includer,
      ∀ line ∈ lines source, (Utf8.encode line).length < 2 ^ 32 - 1) :
    let readText path := (system.readText path).toOption
    List.Forall₂ (fun edge filled => IsFilled (sourceText unit system edge.includer) edge filled)
        edges (fill unit readText edges) ∧
      (fill unit readText edges = edges.flatMap fun edge => fill unit readText [edge]) ∧
      ∀ filled ∈ fill unit readText edges, 1 ≤ filled.location.column.toNat := by
  intro readText
  simp only [readText, fill_eq_map]
  refine ⟨?_, ?_, ?_⟩
  · rw [List.forall₂_map_right_iff, List.forall₂_same]
    intro edge member
    exact isFilled_withColumn (short edge member)
  · exact List.map_eq_flatMap
  · intro filled member
    obtain ⟨edge, inEdges, rfl⟩ := List.mem_map.mp member
    exact one_le_column (isFilled_withColumn (short edge inEdges))

/-! ### An indented directive -/

/-- A header in which an ideographic space and a tab stand before a directive. -/
def indentedText : String := "#pragma once\n\u3000\t#include \"b.h\"\n"

def indentedTree : FileSystem :=
  ⟨[(Utf8.ofString "w", .directory [(Utf8.ofString "a.h",
    .file (Utf8.ofString indentedText) false)])], []⟩

/-- Edges from the unit, from the header and from something that is no file. -/
def indentedEdges : List IncludeEdge :=
  [⟨"/w/a.h", "<stdin>", ⟨"<stdin>", 1, 0⟩⟩, ⟨"b.h", "/w/a.h", ⟨"/w/a.h", 2, 0⟩⟩,
    ⟨"/p.h", "<command-line>", ⟨"<command-line>", 0, 0⟩⟩]

/-- The space takes three octets. -/
theorem fill_indentedEdges :
    (fill (.forHeader "/w/a.h" []) (fun path => (indentedTree.readText path).toOption)
      indentedEdges).map (·.location.column.toNat) = [1, 5, 1] := by
  have short : ∀ edge ∈ indentedEdges,
      ∀ source ∈ sourceText (.forHeader "/w/a.h" []) indentedTree edge.includer,
        ∀ line ∈ lines source, (Utf8.encode line).length < 2 ^ 32 - 1 := by decide +kernel
  have inUnit : HasDirective (sourceText (.forHeader "/w/a.h" []) indentedTree "<stdin>") 1 [] :=
    ⟨_, 0, "include </w/a.h>".toList, rfl, rfl, by decide, isGap_nil⟩
  have inHeader : HasDirective (sourceText (.forHeader "/w/a.h" []) indentedTree "/w/a.h") 2
      ['\u3000', '\t'] :=
    ⟨indentedText.toList, 1, "include \"b.h\"".toList, by decide +kernel, rfl, by decide,
      (isGap_nil.cons (by decide)).cons (by decide)⟩
  obtain ⟨each, -⟩ := fill_isFilled short
  generalize fill (.forHeader "/w/a.h" []) (fun path => (indentedTree.readText path).toOption)
    indentedEdges = filled at each ⊢
  rcases each with _ | ⟨first, _ | ⟨second, _ | ⟨third, ⟨⟩⟩⟩⟩
  have noLine {text : Option (List Char)} (blanks : List Char) : ¬ HasDirective text 0 blanks := by
    rintro ⟨_, number, _, _, position, -⟩
    contradiction
  simp only [List.map_cons, List.map_nil, first.directive _ inUnit, second.directive _ inHeader,
    third.noDirective noLine]
  decide

end IncludeGate.DirectiveColumn
