import IncludeGate.Proofs.IncludeGraph.Emission

/-!
# Files that change their names

A directive of a file may give the file another name and its next line another number, as
generated headers do that point at the text they were made from.  From then on the file goes by
that name, in the markers that return to it and in the edges of what it includes.

Whether a file is a pseudo file is decided by its present name alone.  So a file with a name
in angle brackets passes for one as long as it has that name, and what it includes meanwhile
gives no edge, although no preprocessor has a pseudo file of that name.  Of all files that are
entered the edges are those that are seen in this sense; and none is missing exactly when no
file includes another one under such a name.
-/

namespace IncludeGate.IncludeGraph

open Text

/-! ## Files with several names -/

/-- The names that preprocessors give to what is no file. -/
def reservedNames : List String :=
  ["<built-in>", "<command line>", "<command-line>"]

/-- A part of a file: a line of text, a new name for the file with the number of its next
line, or another file that is entered, with the numbers of its first line and of the line that
follows it. -/
inductive Part where
  | text (line : TextLine)
  | rename (line : UInt32) (name : String)
  | entry (file : String) (first : UInt32) (parts : List Part) (next : UInt32)

/-- The files that are entered in parts of a file, each with the name that the file has at
that moment and the number that its line has. -/
def entries : String → Nat → List Part → List IncludeEdge
  | _, _, [] => []
  | name, number, .text _ :: rest => entries name (number + 1) rest
  | _, _, .rename line name :: rest => entries name line.toNat rest
  | name, number, .entry file first parts next :: rest =>
      ⟨file, name, ⟨name, counter number, 0⟩⟩ ::
        (entries file first.toNat parts ++ entries name next.toNat rest)

/-- The preprocessed text of parts of a file, given the name that the file has.  A return goes
to the file under the name that it had when it was left. -/
inductive Prints : String → List Part → List (List Char) → Prop where
  | done {name : String} : Prints name [] []
  | text {name : String} {line : TextLine} {rest : List Part} {output : List (List Char)} :
      Prints name rest output →
      Prints name (.text line :: rest) (line.characters :: output)
  | rename {name newName : String} {line : UInt32} {rest : List Part} {change : List Char}
      {output : List (List Char)} {remarks : List Remark} :
      newName ∉ reservedNames →
      (marker .stay line newName remarks).WrittenAs change →
      Prints newName rest output →
      Prints name (.rename line newName :: rest) (change :: output)
  | entry {name file : String} {first next : UInt32} {parts rest : List Part}
      {enter back : List Char} {inner output : List (List Char)}
      {entering leaving : List Remark} :
      (marker .enter first file entering).WrittenAs enter →
      Prints file parts inner →
      (marker .leave next name leaving).WrittenAs back →
      Prints name rest output →
      Prints name (.entry file first parts next :: rest) (enter :: inner ++ back :: output)

/-- The preprocessed text of a unit, as the list of its lines, when files may change their
names. -/
inductive RenamedOutput (unit : String) (parts : List Part) : List (List Char) → Prop where
  | direct {start : List Char} {output : List (List Char)} {remarks : List Remark} :
      (marker .stay 1 unit remarks).WrittenAs start →
      Prints unit parts output →
      RenamedOutput unit parts (start :: output)
  | withPreamble {line : UInt32} {start : List Char} {preamble output : List (List Char)}
      {remarks : List Remark} :
      (marker .stay line unit remarks).WrittenAs start →
      Preamble unit unit preamble →
      Prints unit parts output →
      RenamedOutput unit parts (start :: preamble ++ output)

/-! ## Entries that are seen -/

/-- An entry gives an edge: it is made from the unit or from what goes by the name of a file,
and to what has the name of a file. -/
def IsSeen (unit : String) (entry : IncludeEdge) : Prop :=
  IsReadable unit entry.includer ∧ isPseudoFile entry.included = false

instance (unit : String) (entry : IncludeEdge) : Decidable (IsSeen unit entry) :=
  inferInstanceAs (Decidable ((_ ∨ _) ∧ _))

theorem not_mem_reservedNames {name : String} (real : isPseudoFile name = false) :
    name ∉ reservedNames := by
  have pseudo : ∀ reserved ∈ reservedNames, isPseudoFile reserved = true := by decide
  intro reserved
  rw [pseudo name reserved] at real
  contradiction

variable {unit : String}

/-- A marker that enters a file gives the edge of the entry if it is seen. -/
theorem edge?_entry {top : Frame} {below : List Frame} {file : String} {first : UInt32}
    {remarks : List Remark} :
    (edge? unit (top :: below) (some (marker .enter first file remarks))).toList =
      [⟨file, top.file, ⟨top.file, top.nextLine, 0⟩⟩].filter (IsSeen unit ·) := by
  rw [List.filter_cons, List.filter_nil, edge?_some]
  by_cases seen : IsSeen unit ⟨file, top.file, ⟨top.file, top.nextLine, 0⟩⟩
  · rw [if_pos ⟨by simp, seen⟩, if_pos (decide_eq_true seen)]
    rfl
  · rw [if_neg fun counts => seen counts.2, if_neg (by rwa [decide_eq_true_iff])]
    rfl

/-! ## Reading -/

/-- In the text of a file those of its entries are found that are seen, and the files that are
open around it stay open. -/
theorem Prints.reads {name : String} {parts : List Part} {output : List (List Char)}
    (printed : Prints name parts output) (number : Nat) (below : List Frame) :
    ∃ last, Reads unit (⟨name, counter number⟩ :: below) output
      ((entries name number parts).filter (IsSeen unit ·)) (last :: below) := by
  induction printed generalizing number below with
  | done =>
      rw [entries]
      exact ⟨_, .nil⟩
  | @text name line rest output _ ih =>
      obtain ⟨last, reads⟩ := ih (number + 1) below
      rw [← lineAfter_counter] at reads
      rw [entries]
      exact ⟨last, (Reads.text line _ below).append reads⟩
  | @rename name newName line rest change output remarks _ written _ ih =>
      obtain ⟨last, reads⟩ := ih line.toNat below
      rw [counter_toNat] at reads
      rw [entries]
      exact ⟨last, (Reads.stay written).append reads⟩
  | @entry name file first next parts rest enter back inner output entering leaving
      enters _ leaves _ innerIH restIH =>
      -- New names of the inner file go with it, so the outer file has its name at the return.
      let outer : Frame := ⟨name, counter number⟩
      obtain ⟨innerLast, innerReads⟩ := innerIH first.toNat (outer :: below)
      obtain ⟨last, restReads⟩ := restIH next.toNat below
      rw [counter_toNat] at innerReads restReads
      have start : Reads unit (outer :: below) [enter] _ (⟨file, first⟩ :: outer :: below) :=
        .single enters.oneLine enters.parse? edge?_entry advance_enter
      have finish : Reads unit (innerLast :: outer :: below) [back] [] _ := .leave leaves
      have whole := start.append (innerReads.append (finish.append restReads))
      have parted : entries name number (.entry file first parts next :: rest) =
          [⟨file, outer.file, ⟨outer.file, outer.nextLine, 0⟩⟩] ++
            (entries file first.toNat parts ++ entries name next.toNat rest) := by
        rw [entries]
        rfl
      refine ⟨last, ?_⟩
      rw [parted, List.filter_append, List.filter_append]
      simpa only [List.append_assoc, List.cons_append, List.nil_append] using whole

theorem RenamedOutput.reads {parts : List Part} {output : List (List Char)}
    (printed : RenamedOutput unit parts output) :
    ∃ after, Reads unit [] output ((entries unit 1 parts).filter (IsSeen unit ·)) after := by
  cases printed with
  | @direct start output remarks written body =>
      obtain ⟨last, reads⟩ := body.reads 1 []
      exact ⟨_, (Reads.start written).append reads⟩
  | @withPreamble line start preamble output remarks written opening body =>
      obtain ⟨below, openingReads⟩ := opening.reads line []
      obtain ⟨last, reads⟩ := body.reads 1 below
      exact ⟨_, by simpa using (Reads.start written).append (openingReads.append reads)⟩

/-- Where the entries that are seen are among others, both are the same exactly when none of
the others is missing. -/
theorem filter_isSeen_eq_iff {all : List IncludeEdge} :
    all.filter (IsSeen unit ·) = all.filter (·.included ∉ reservedNames) ↔
      ∀ entry ∈ all, entry.included ∉ reservedNames → IsSeen unit entry := by
  constructor
  · intro same entry member unreserved
    have expected : entry ∈ all.filter (·.included ∉ reservedNames) :=
      List.mem_filter.mpr ⟨member, decide_eq_true unreserved⟩
    rw [← same] at expected
    exact of_decide_eq_true (List.mem_filter.mp expected).2
  · intro allSeen
    apply List.filter_congr
    intro entry member
    rw [decide_eq_decide]
    constructor
    · intro seen
      exact not_mem_reservedNames seen.2
    · exact allSeen entry member

/-- Of the files that are entered while files change their names the edges are those that are
seen, in the order of their entry and under the names of that moment.  There is an edge for
every entry whose name is not reserved exactly when all of these are seen. -/
theorem edges_unlines_of_renamed {parts : List Part} {output : List (List Char)}
    (printed : RenamedOutput unit parts output) :
    edges unit (unlines output) = (entries unit 1 parts).filter (IsSeen unit ·) ∧
    (edges unit (unlines output) = (entries unit 1 parts).filter (·.included ∉ reservedNames) ↔
      ∀ entry ∈ entries unit 1 parts, entry.included ∉ reservedNames → IsSeen unit entry) := by
  obtain ⟨after, reads⟩ := printed.reads
  rw [reads.edges_unlines]
  exact ⟨rfl, filter_isSeen_eq_iff⟩

/-! ## A header that was generated -/

/-- A header whose first include stands in a grammar, and whose second one stands in a text
that has been generated. -/
def generatedHeader : List Part :=
  [.rename 7 "grammar.y", .entry "/w/tokens.h" 1 [] 8, .rename 10 "<generated>",
    .entry "/w/priv/x.h" 1 [] 11]

def generatedHeaderText : List (List Char) :=
  [(marker .stay 7 "grammar.y" []).print, (marker .enter 1 "/w/tokens.h" []).print,
    (marker .leave 8 "grammar.y" []).print, (marker .stay 10 "<generated>" []).print,
    (marker .enter 1 "/w/priv/x.h" []).print, (marker .leave 11 "<generated>" []).print]

/-- A unit that includes the header. -/
def generatedUnit : List Part :=
  [.entry "/w/a.h" 1 generatedHeader 2]

def generatedUnitText : List (List Char) :=
  (marker .stay 1 "<stdin>" []).print ::
    ((marker .enter 1 "/w/a.h" []).print :: generatedHeaderText ++
      [(marker .leave 2 "<stdin>" []).print])

theorem renamedOutput_generatedUnitText :
    RenamedOutput "<stdin>" generatedUnit generatedUnitText := by
  have printed := Linemarker.writtenAs_print
  have generated : Prints "<generated>" [.entry "/w/priv/x.h" 1 [] 11] _ :=
    .entry (printed (marker .enter 1 "/w/priv/x.h" [])) .done
      (printed (marker .leave 11 "<generated>" [])) .done
  have header : Prints "/w/a.h" generatedHeader generatedHeaderText :=
    .rename (by decide) (printed _)
      (.entry (printed _) .done (printed _) (.rename (by decide) (printed _) generated))
  exact .direct (printed _) (.entry (printed _) header (printed _) .done)

theorem entries_generatedUnit :
    entries "<stdin>" 1 generatedUnit =
      [⟨"/w/a.h", "<stdin>", ⟨"<stdin>", 1, 0⟩⟩,
        ⟨"/w/tokens.h", "grammar.y", ⟨"grammar.y", 7, 0⟩⟩,
        ⟨"/w/priv/x.h", "<generated>", ⟨"<generated>", 10, 0⟩⟩] := by
  simp [generatedUnit, generatedHeader, entries]
  decide

theorem edges_generatedUnitText :
    RenamedOutput "<stdin>" generatedUnit generatedUnitText ∧
      edges "<stdin>" (unlines generatedUnitText) =
        [⟨"/w/a.h", "<stdin>", ⟨"<stdin>", 1, 0⟩⟩,
          ⟨"/w/tokens.h", "grammar.y", ⟨"grammar.y", 7, 0⟩⟩] := by
  have printed := renamedOutput_generatedUnitText
  refine ⟨printed, (edges_unlines_of_renamed printed).1.trans ?_⟩
  rw [entries_generatedUnit]
  decide

/-- What a file includes under a name in angle brackets is lost. -/
theorem edges_unlines_ne_entries :
    ¬ ∀ parts output, RenamedOutput "<stdin>" parts output →
      edges "<stdin>" (unlines output) =
        (entries "<stdin>" 1 parts).filter (·.included ∉ reservedNames) := by
  intro complete
  have same := complete _ _ renamedOutput_generatedUnitText
  obtain ⟨after, reads⟩ := renamedOutput_generatedUnitText.reads
  rw [reads.edges_unlines, filter_isSeen_eq_iff, entries_generatedUnit] at same
  exact absurd same (by decide)

end IncludeGate.IncludeGraph
