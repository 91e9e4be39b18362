import IncludeGate.Proofs.Diagnostic.Lines

/-!
# Diagnostics of a whole stream

Whether a note is kept depends on what was kept before it, so a stream is not read line by line
independently.  It is read with what is kept so far as a state: a line adds its diagnostic, or
nothing if it has none, and a note adds nothing once there is something to which it belongs.

So lines without a diagnostic can stand anywhere, and a stream in two parts is read in two
parts, the second of which begins with what the first has left.
-/

namespace IncludeGate.Diagnostic

open Text

/-- A line that stands for a diagnostic. -/
def IsDiagnostic (line : List Char) : Prop :=
  (parse? line).isSome = true

/-- A text without such lines. -/
def IsSilent (text : List Char) : Prop :=
  ∀ line ∈ lines text, ¬ IsDiagnostic line

/-- No line is unfinished at the end of a text. -/
def EndsLine (text : List Char) : Prop :=
  text = [] ∨ text.getLast? = some '\n'

/-- The diagnostics of all lines, notes included. -/
def told (text : List Char) : List Diagnostic :=
  (lines text).filterMap parse?

/-- What is kept after one more line. -/
def keepLine (kept : List Diagnostic) (line : List Char) : List Diagnostic :=
  match parse? line with
  | none => kept
  | some diagnostic =>
      if diagnostic.severity = .note ∧ kept ≠ [] then kept else kept ++ [diagnostic]

/-! ## Line by line -/

variable {kept : List Diagnostic} {line : List Char} {stream : List (List Char)}

theorem keepLine_of_silent (silent : ¬ IsDiagnostic line) : keepLine kept line = kept := by
  rw [IsDiagnostic, Bool.not_eq_true, Option.isSome_eq_false_iff, Option.isNone_iff_eq_none]
    at silent
  rw [keepLine, silent]

/-- Once something is kept, the rest of a stream adds all but its notes. -/
theorem foldl_keepLine_of_ne_nil (some : kept ≠ []) :
    stream.foldl keepLine kept =
      kept ++ (stream.filterMap parse?).filter (·.severity ≠ .note) := by
  induction stream generalizing kept with
  | nil => simp
  | cons line stream ih =>
      rw [List.foldl_cons, keepLine]
      cases parsed : parse? line with
      | none => rw [List.filterMap_cons_none parsed, ih some]
      | some diagnostic =>
          rw [List.filterMap_cons_some parsed]
          by_cases note : diagnostic.severity = .note
          · simp [note, some, ih some]
          · simp [note, ih]

theorem dropAttachedNotes_filterMap (stream : List (List Char)) :
    dropAttachedNotes (stream.filterMap parse?) = stream.foldl keepLine [] := by
  induction stream with
  | nil => rfl
  | cons line stream ih =>
      rw [List.foldl_cons, keepLine]
      cases parsed : parse? line with
      | none => rw [List.filterMap_cons_none parsed, ih]
      | some diagnostic =>
          have first : ¬ (diagnostic.severity = .note ∧ ([] : List Diagnostic) ≠ []) :=
            fun both => both.2 rfl
          rw [List.filterMap_cons_some parsed, dropAttachedNotes]
          simp only [if_neg first]
          rw [List.nil_append, foldl_keepLine_of_ne_nil (List.cons_ne_nil _ _),
            List.singleton_append]

/-- A stream is read from its first line to its last one. -/
theorem list_eq_foldl (text : List Char) : list text = (lines text).foldl keepLine [] :=
  dropAttachedNotes_filterMap (lines text)

theorem foldl_keepLine_of_silent (silent : ∀ line ∈ stream, ¬ IsDiagnostic line) :
    stream.foldl keepLine kept = kept := by
  induction stream with
  | nil => rfl
  | cons line stream ih =>
      obtain ⟨here, later⟩ := List.forall_mem_cons.mp silent
      rw [List.foldl_cons, keepLine_of_silent here, ih later]

/-! ## Streams in parts -/

variable {front inserted : List Char}

/-- The second part of a stream is read with what is kept of the first one. -/
theorem list_append (ended : EndsLine front) (back : List Char) :
    list (front ++ back) = (lines back).foldl keepLine (list front) := by
  rw [list_eq_foldl, list_eq_foldl, lines_append ended, List.foldl_append]

theorem list_append_eq_ite (ended : EndsLine front) (back : List Char) :
    list (front ++ back) =
      if list front = [] then list back
      else list front ++ (told back).filter (·.severity ≠ .note) := by
  rw [list_append ended]
  split
  · rename_i nothing
    rw [nothing, list_eq_foldl]
  · rename_i some
    exact foldl_keepLine_of_ne_nil some

theorem list_insert (ended : EndsLine front) (silent : IsSilent inserted) {back : List Char}
    (whole : EndsLine inserted ∨ back = []) :
    list (front ++ inserted ++ back) = list (front ++ back) := by
  rw [List.append_assoc, list_append ended, list_append ended]
  rcases whole with whole | rfl
  · rw [lines_append whole, List.foldl_append, foldl_keepLine_of_silent silent]
  · rw [List.append_nil, foldl_keepLine_of_silent silent, lines_nil]
    rfl

/-- It does not count whether the last line is finished. -/
theorem list_concat_newline (text : List Char) : list (text ++ ['\n']) = list text := by
  rw [list, list, lines, lines, filterMap_linesOfPieces rfl parse?_dropReturn,
    filterMap_linesOfPieces rfl parse?_dropReturn, pieces_append_separator (by decide),
    List.filterMap_append]
  exact congrArg dropAttachedNotes (List.append_nil _)

/-! ## Notes -/

theorem map_filter_zipIdx (diagnostics : List Diagnostic) (position : Nat) :
    ((diagnostics.zipIdx (position + 1)).filter fun (diagnostic, position) =>
        diagnostic.severity ≠ .note ∨ position = 0).map Prod.fst =
      diagnostics.filter (·.severity ≠ .note) := by
  induction diagnostics generalizing position with
  | nil => rfl
  | cons diagnostic diagnostics ih =>
      by_cases note : diagnostic.severity = .note <;>
        simp [List.zipIdx_cons, note] at ih ⊢ <;> exact ih _

theorem dropAttachedNotes_eq_filter (diagnostics : List Diagnostic) :
    dropAttachedNotes diagnostics =
      (diagnostics.zipIdx.filter fun (diagnostic, position) =>
        diagnostic.severity ≠ .note ∨ position = 0).map Prod.fst := by
  cases diagnostics with
  | nil => rfl
  | cons first rest =>
      rw [dropAttachedNotes, List.zipIdx_cons, List.filter_cons_of_pos (by simp), List.map_cons,
        map_filter_zipIdx]

theorem position_eq_zero_of_note {diagnostics : List Diagnostic} {position : Nat}
    {diagnostic : Diagnostic} (here : (dropAttachedNotes diagnostics)[position]? = some diagnostic)
    (note : diagnostic.severity = .note) : position = 0 := by
  cases diagnostics with
  | nil => contradiction
  | cons first rest =>
      cases position with
      | zero => rfl
      | succ position =>
          have member : diagnostic ∈ rest.filter (·.severity ≠ .note) :=
            List.mem_of_getElem? here
          simp [note] at member

theorem list_eq_nil_iff {text : List Char} : list text = [] ↔ IsSilent text := by
  rw [list, dropAttachedNotes_eq_nil, List.filterMap_eq_nil_iff]
  simp [IsSilent, IsDiagnostic]

/-! ## Streams -/

/-- Of the diagnostics of a stream, a note is kept only in the first place, and all else is
kept, in order.  So there is nothing exactly where no line has a diagnostic; lines without one
can be put in anywhere, also after a last line that was not finished; and a second part adds
all that it has if nothing was kept before, and all but its notes otherwise. -/
theorem list_stream (text : List Char) :
    list text =
        ((told text).zipIdx.filter fun (diagnostic, position) =>
          diagnostic.severity ≠ .note ∨ position = 0).map Prod.fst ∧
      (∀ (position : Nat) (diagnostic : Diagnostic), (list text)[position]? = some diagnostic →
        diagnostic.severity = .note → position = 0) ∧
      (list text = [] ↔ ∀ line ∈ lines text, ¬ IsDiagnostic line) ∧
      (∀ inserted, IsSilent inserted →
        (∀ front back, text = front ++ back → EndsLine front → EndsLine inserted ∨ back = [] →
          list (front ++ inserted ++ back) = list text) ∧
        list (text ++ '\n' :: inserted) = list text) ∧
      (EndsLine text → ∀ more,
        list (text ++ more) =
          if list text = [] then list more
          else list text ++ (told more).filter (·.severity ≠ .note)) := by
  refine ⟨dropAttachedNotes_eq_filter (told text), ?_, list_eq_nil_iff, ?_, ?_⟩
  · intro position diagnostic here note
    exact position_eq_zero_of_note here note
  · intro inserted silent
    constructor
    · rintro front back rfl ended whole
      exact list_insert ended silent whole
    · have ended : EndsLine (text ++ ['\n']) := .inr List.getLast?_concat
      have after := list_insert ended silent (.inr rfl)
      rwa [List.append_nil, List.append_nil, list_concat_newline, List.append_assoc] at after
  · intro ended more
    exact list_append_eq_ite ended more

/-- The error stream of a compiler for a header with an error, the excerpt that shows it,
and a second part with the note on that error and a warning. -/
theorem list_noteStream :
    let error :=
      "In file included from <stdin>:1:\n/w/a.h:5:2: error: redefinition of 'f'\n".toList
    let excerpt := "    5 | int f;\n      |     ^\n".toList
    let others := "/w/a.h:2:1: note: first seen here\n/w/b.h:1:1: warning: odd\n".toList
    EndsLine error ∧ IsSilent excerpt ∧
      list (error ++ excerpt ++ []) = [⟨some ⟨"/w/a.h", 5, 2⟩, .error, "redefinition of 'f'"⟩] ∧
      list (error ++ others) =
        [⟨some ⟨"/w/a.h", 5, 2⟩, .error, "redefinition of 'f'"⟩,
          ⟨some ⟨"/w/b.h", 1, 1⟩, .warning, "odd"⟩] := by
  intro error excerpt others
  have ended : EndsLine error := .inr (by decide)
  have silent : IsSilent excerpt := list_eq_nil_iff.mp (by decide +kernel)
  have kept : list error = [⟨some ⟨"/w/a.h", 5, 2⟩, .error, "redefinition of 'f'"⟩] := by
    decide +kernel
  have rest : (told others).filter (·.severity ≠ .note) =
      [⟨some ⟨"/w/b.h", 1, 1⟩, .warning, "odd"⟩] := by decide +kernel
  obtain ⟨-, -, -, insert, append⟩ := list_stream error
  refine ⟨ended, silent, ?_, ?_⟩
  · rw [(insert excerpt silent).1 error [] (List.append_nil _).symm ended (.inr rfl), kept]
  · rw [append ended, kept, rest]
    rfl

end IncludeGate.Diagnostic
