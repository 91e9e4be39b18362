import IncludeGate.Report.WorkflowCommand
import Mathlib.Logic.Function.Defs

/-!
# Codes in the text of a command

The text of a command is written with a code for each percent sign, carriage return and line
feed.  A code begins with a percent sign, and no other percent sign is left, so whoever reads
from left to right knows at each percent sign that a code begins there; this is why nothing is
lost, also where the text itself looks like a code.

The codes may be put in one after another over the whole text, if those for percent signs come
first: what is put in later then has percent signs of its own, but none is touched again.
-/

namespace IncludeGate.WorkflowCommand

/-- What follows a percent sign in a written text: the hexadecimal number of the character for
which the code stands. -/
def codes : List (List Char) :=
  [['2', '5'], ['0', 'D'], ['0', 'A']]

/-- The text that was written, read once from left to right. -/
def unescape : List Char → List Char
  | '%' :: '2' :: '5' :: rest => '%' :: unescape rest
  | '%' :: '0' :: 'D' :: rest => '\r' :: unescape rest
  | '%' :: '0' :: 'A' :: rest => '\n' :: unescape rest
  | character :: rest => character :: unescape rest
  | [] => []

/-- A text on one line in which every percent sign begins a code. -/
structure IsEscaped (text : List Char) : Prop where
  noReturn : '\r' ∉ text
  noFeed : '\n' ∉ text
  coded : ∀ front rest, text = front ++ '%' :: rest → ∃ code ∈ codes, code <+: rest

/-- Put a text in place of each occurrence of a character. -/
def replace (character : Char) (replacement text : List Char) : List Char :=
  text.flatMap fun other => if other = character then replacement else [other]

variable {text front back : List Char}

/-! ## Written characters -/

/-- A character is written as a code, or else as itself. -/
theorem escapeChar_cases (character : Char) :
    (∃ code ∈ codes, escapeChar character = '%' :: code) ∨
      character ≠ '%' ∧ character ≠ '\r' ∧ character ≠ '\n' ∧
        escapeChar character = [character] := by
  unfold escapeChar
  split
  · exact .inl ⟨_, .head _, rfl⟩
  rename_i notPercent
  split
  · exact .inl ⟨_, .tail _ (.head _), rfl⟩
  rename_i notReturn
  split
  · exact .inl ⟨_, .tail _ (.tail _ (.head _)), rfl⟩
  rename_i notFeed
  exact .inr ⟨notPercent, notReturn, notFeed, rfl⟩

theorem escapeChar_of_plain {character : Char} (notPercent : character ≠ '%')
    (notReturn : character ≠ '\r') (notFeed : character ≠ '\n') :
    escapeChar character = [character] := by
  rw [escapeChar, if_neg notPercent, if_neg notReturn, if_neg notFeed]

theorem unescape_cons_of_ne {character : Char} (notPercent : character ≠ '%')
    (rest : List Char) : unescape (character :: rest) = character :: unescape rest := by
  rw [unescape]
  all_goals
    intros
    exact notPercent ‹_›

theorem escape_cons (character : Char) (rest : List Char) :
    escape (character :: rest) = escapeChar character ++ escape rest :=
  List.flatMap_cons

theorem escape_append (front back : List Char) :
    escape (front ++ back) = escape front ++ escape back :=
  List.flatMap_append

/-! ## Texts in which every percent sign begins a code -/

theorem isEscaped_nil : IsEscaped [] where
  noReturn := List.not_mem_nil
  noFeed := List.not_mem_nil
  coded front rest equal := by simp at equal

/-- A code is not broken by what comes after it. -/
theorem IsEscaped.append (first : IsEscaped front) (second : IsEscaped back) :
    IsEscaped (front ++ back) where
  noReturn member := (List.mem_append.mp member).elim first.noReturn second.noReturn
  noFeed member := (List.mem_append.mp member).elim first.noFeed second.noFeed
  coded before rest equal := by
    rcases List.append_eq_append_iff.mp equal with ⟨between, -, inBack⟩ | ⟨between, inFront, after⟩
    · exact second.coded between rest inBack
    · cases between with
      | nil => exact second.coded [] rest after.symm
      | cons first between =>
          obtain ⟨rfl, rfl⟩ := List.cons.inj after
          obtain ⟨code, isCode, begins⟩ := ‹IsEscaped front›.coded before between inFront
          exact ⟨code, isCode, begins.trans (List.prefix_append _ _)⟩

theorem IsEscaped.of_append (front : List Char) (escaped : IsEscaped (front ++ back)) :
    IsEscaped back where
  noReturn member := escaped.noReturn (List.mem_append_right front member)
  noFeed member := escaped.noFeed (List.mem_append_right front member)
  coded before rest equal :=
    escaped.coded (front ++ before) rest (by rw [equal, List.append_assoc])

theorem isEscaped_code {code : List Char} (isCode : code ∈ codes) : IsEscaped ('%' :: code) := by
  have noOther : '%' ∉ code ∧ '\r' ∉ '%' :: code ∧ '\n' ∉ '%' :: code := by
    revert code
    decide
  refine ⟨noOther.2.1, noOther.2.2, ?_⟩
  intro front rest equal
  cases front with
  | nil =>
      obtain ⟨-, rfl⟩ := List.cons.inj equal
      exact ⟨code, isCode, List.prefix_rfl⟩
  | cons first front =>
      obtain ⟨-, rfl⟩ := List.cons.inj equal
      exact absurd (List.mem_append_right front List.mem_cons_self) noOther.1

theorem isEscaped_escapeChar (character : Char) : IsEscaped (escapeChar character) := by
  rcases escapeChar_cases character with
    ⟨code, isCode, written⟩ | ⟨notPercent, notReturn, notFeed, written⟩
  · rw [written]
    exact isEscaped_code isCode
  · rw [written]
    refine ⟨by simp [notReturn.symm], by simp [notFeed.symm], ?_⟩
    intro front rest equal
    have member : '%' ∈ [character] := equal ▸ List.mem_append_right front List.mem_cons_self
    exact absurd (List.mem_singleton.mp member).symm notPercent

theorem isEscaped_escape (text : List Char) : IsEscaped (escape text) := by
  induction text with
  | nil => exact isEscaped_nil
  | cons character text ih =>
      rw [escape_cons]
      exact (isEscaped_escapeChar character).append ih

/-! ## Reading and writing -/

theorem unescape_escapeChar_append (character : Char) (rest : List Char) :
    unescape (escapeChar character ++ rest) = character :: unescape rest := by
  by_cases percent : character = '%'
  · subst percent
    rfl
  by_cases isReturn : character = '\r'
  · subst isReturn
    rfl
  by_cases isFeed : character = '\n'
  · subst isFeed
    rfl
  rw [escapeChar_of_plain percent isReturn isFeed]
  exact unescape_cons_of_ne percent rest

@[simp] theorem unescape_escape (text : List Char) : unescape (escape text) = text := by
  induction text with
  | nil => rfl
  | cons character text ih => rw [escape_cons, unescape_escapeChar_append, ih]

/-- Nothing but what `escape` writes has codes at all its percent signs. -/
theorem escape_unescape (escaped : IsEscaped text) : escape (unescape text) = text := by
  fun_induction unescape text with
  | case1 rest ih | case2 rest ih | case3 rest ih =>
      rw [escape_cons, ih (.of_append ['%', _, _] escaped)]
      rfl
  | case4 character rest noPercent noReturn noFeed ih =>
      have notReturn : character ≠ '\r' := fun equal => escaped.noReturn (equal ▸ .head _)
      have notFeed : character ≠ '\n' := fun equal => escaped.noFeed (equal ▸ .head _)
      have notPercent : character ≠ '%' := by
        rintro rfl
        obtain ⟨code, isCode, tail, rfl⟩ := escaped.coded [] rest rfl
        simp only [codes, List.mem_cons, List.not_mem_nil, or_false] at isCode
        rcases isCode with rfl | rfl | rfl
        · exact noPercent tail rfl rfl
        · exact noReturn tail rfl rfl
        · exact noFeed tail rfl rfl
      rw [escape_cons, escapeChar_of_plain notPercent notReturn notFeed,
        ih (.of_append [character] escaped)]
      rfl
  | case5 => rfl

/-! ## One character after another -/

theorem replace_append (character : Char) (replacement front back : List Char) :
    replace character replacement (front ++ back) =
      replace character replacement front ++ replace character replacement back :=
  List.flatMap_append

/-- Codes for percent signs first, then those for the ends of lines. -/
theorem escape_eq_replace (text : List Char) :
    escape text =
      replace '\n' "%0A".toList (replace '\r' "%0D".toList (replace '%' "%25".toList text)) := by
  induction text with
  | nil => rfl
  | cons character text ih =>
      have here : escapeChar character =
          replace '\n' "%0A".toList
            (replace '\r' "%0D".toList (replace '%' "%25".toList [character])) := by
        by_cases percent : character = '%'
        · subst percent
          rfl
        by_cases isReturn : character = '\r'
        · subst isReturn
          rfl
        by_cases isFeed : character = '\n'
        · subst isFeed
          rfl
        simp [escapeChar, replace, percent, isReturn, isFeed]
      rw [escape_cons, here, ih, ← replace_append, ← replace_append, ← replace_append,
        List.singleton_append]

/-- With percent signs last, a line feed and the code for it cannot be told apart. -/
example :
    replace '%' "%25".toList (replace '\n' "%0A".toList ['\n']) =
      replace '%' "%25".toList (replace '\n' "%0A".toList "%0A".toList) := by
  decide

/-- Texts are written without loss.  The three codes are put in one after another, which comes
to one code for each character; what is written stays on one line, begins a code at every
percent sign and is read back; the texts of this form are all written; different texts are
written differently; and a text is written part by part. -/
theorem escape_lossless :
    (∀ text, escape text =
      replace '\n' "%0A".toList (replace '\r' "%0D".toList (replace '%' "%25".toList text))) ∧
    (∀ text, IsEscaped (escape text) ∧ unescape (escape text) = text) ∧
    (∀ written, (∃ text, escape text = written) ↔ IsEscaped written) ∧
    Function.Injective escape ∧
    ∀ front back, escape (front ++ back) = escape front ++ escape back := by
  refine ⟨escape_eq_replace, fun text => ⟨isEscaped_escape text, unescape_escape text⟩, ?_, ?_,
    escape_append⟩
  · intro written
    constructor
    · rintro ⟨text, rfl⟩
      exact isEscaped_escape text
    · intro escaped
      exact ⟨unescape written, escape_unescape escaped⟩
  · exact Function.LeftInverse.injective unescape_escape

end IncludeGate.WorkflowCommand
