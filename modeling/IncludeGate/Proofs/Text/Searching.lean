import IncludeGate.Proofs.Text.Words
import IncludeGate.Text.Search

/-!
# First occurrences

A text is cut where a pattern occurs for the first time, which is said here without the search:
no occurrence begins earlier.  Where a pattern begins with a character that it does not have
again, two of its occurrences never overlap, and the first one is simply that before which there
is none.

A pattern without line feeds, and without blanks at its ends, never reaches over the end of a
line or into the blanks around it.
-/

namespace IncludeGate.Text

variable {pattern text before rest front back : List Char}

/-- A pattern occurs in a text between two parts of it, and no occurrence begins earlier. -/
structure IsFirst (pattern text before rest : List Char) : Prop where
  split : text = before ++ pattern ++ rest
  least : ∀ front back, text = front ++ pattern ++ back → before.length ≤ front.length

/-! ## The place of a cut -/

/-- A text is cut no later than where the pattern occurs. -/
theorem length_le_of_cut (found : cut pattern (front ++ pattern ++ back) = some (before, rest)) :
    before.length ≤ front.length := by
  induction front generalizing before with
  | nil =>
      rw [List.nil_append] at found
      have here := dropStart?_append pattern back
      cases both : pattern ++ back with
      | nil =>
          simp only [both, cut, Option.map_eq_some_iff, Prod.mk.injEq] at found
          obtain ⟨_, -, rfl, -⟩ := found
          exact Nat.le_refl _
      | cons character text =>
          rw [both] at found here
          simp only [cut, here, Option.some.injEq, Prod.mk.injEq] at found
          obtain ⟨rfl, -⟩ := found
          exact Nat.le_refl _
  | cons character front ih =>
      rw [List.cons_append, List.cons_append, cut] at found
      split at found
      · simp only [Option.some.injEq, Prod.mk.injEq] at found
        obtain ⟨rfl, -⟩ := found
        exact Nat.zero_le _
      · simp only [Option.map_eq_some_iff, Prod.exists, Prod.mk.injEq] at found
        obtain ⟨before, rest, later, rfl, rfl⟩ := found
        exact Nat.succ_le_succ (ih later)

/-- A text is cut at the first occurrence of the pattern. -/
theorem cut_eq_some_iff : cut pattern text = some (before, rest) ↔
    IsFirst pattern text before rest := by
  constructor
  · intro found
    refine ⟨eq_append_of_cut found, ?_⟩
    rintro front back rfl
    exact length_le_of_cut found
  · rintro ⟨split, least⟩
    have occurs : occursIn pattern text = true := occursIn_iff.mpr ⟨before, rest, split⟩
    obtain ⟨⟨front, back⟩, found⟩ := Option.isSome_iff_exists.mp occurs
    have equal := eq_append_of_cut found
    have notLater : front.length ≤ before.length := by
      rw [split] at found
      exact length_le_of_cut found
    have sameLength := Nat.le_antisymm notLater (least front back equal)
    rw [split, List.append_assoc, List.append_assoc] at equal
    obtain ⟨rfl, tails⟩ := List.append_inj equal sameLength.symm
    rw [found, (List.append_inj tails rfl).2]

/-- The occurrences of a pattern do not overlap if its first character comes only once. -/
theorem isFirst_iff {first : Char} {tail : List Char} (head : pattern = first :: tail)
    (once : first ∉ tail) :
    IsFirst pattern text before rest ↔
      text = before ++ pattern ++ rest ∧ ¬ pattern <:+: before := by
  subst head
  constructor
  · rintro ⟨split, least⟩
    refine ⟨split, ?_⟩
    rintro ⟨front, back, rfl⟩
    have early := least front (back ++ first :: tail ++ rest) (by rw [split]; simp)
    simp only [List.length_append, List.length_cons] at early
    omega
  · rintro ⟨split, absent⟩
    refine ⟨split, ?_⟩
    intro front back other
    rw [split, List.append_assoc, List.append_assoc] at other
    rcases List.append_eq_append_iff.mp other with ⟨between, rfl, -⟩ | ⟨between, rfl, equal⟩
    · simp
    -- The other occurrence begins earlier, unless nothing is between the two.
    · cases between with
      | nil => simp
      | cons character between =>
          exfalso
          rcases List.append_eq_append_iff.mp equal with ⟨more, inside, -⟩ | ⟨more, whole, begins⟩
          · exact absent ⟨front, more, by rw [inside, List.append_assoc]⟩
          · cases more with
            | nil => exact absent ⟨front, [], by rw [whole, List.append_nil, List.append_nil]⟩
            | cons again more =>
                obtain ⟨rfl, -⟩ := List.cons.inj begins
                obtain ⟨-, rfl⟩ := List.cons.inj whole
                exact once (List.mem_append_right between List.mem_cons_self)

/-! ## Occurrences within a line -/

/-- A beginning of a text that has no separator in it ends before the separator. -/
theorem prefix_of_prefix_append_cons {separator : Char} (front : List Char)
    (solid : separator ∉ pattern) (begins : pattern <+: front ++ separator :: back) :
    pattern <+: front := by
  obtain ⟨more, equal⟩ := begins
  rcases List.append_eq_append_iff.mp equal with ⟨inner, rfl, -⟩ | ⟨outer, rfl, after⟩
  · exact List.prefix_append pattern inner
  · cases outer with
    | nil => exact ⟨[], by rw [List.append_nil, List.append_nil]⟩
    | cons character outer =>
        obtain ⟨rfl, -⟩ := List.cons.inj after
        exact absurd (List.mem_append_right front List.mem_cons_self) solid

/-- A pattern without separators occurs on one side of a separator. -/
theorem infix_of_infix_append_cons {separator : Char} (solid : separator ∉ pattern)
    (inside : pattern <:+: front ++ separator :: back) :
    pattern <:+: front ∨ pattern <:+: back := by
  induction front with
  | nil =>
      rcases List.infix_cons_iff.mp inside with begins | later
      · exact .inl (prefix_of_prefix_append_cons [] solid begins).isInfix
      · exact .inr later
  | cons character front ih =>
      rcases List.infix_cons_iff.mp inside with begins | later
      · exact .inl (prefix_of_prefix_append_cons (character :: front) solid begins).isInfix
      · exact (ih later).imp_left fun found => found.trans (List.suffix_cons _ _).isInfix

/-- What occurs in a text that was joined occurs in one of its pieces. -/
theorem exists_infix_of_infix_join {separator : Char} (filled : pattern ≠ [])
    (solid : separator ∉ pattern) {written : List (List Char)}
    (inside : pattern <:+: join separator written) : ∃ piece ∈ written, pattern <:+: piece := by
  induction written with
  | nil => exact absurd (List.infix_nil.mp inside) filled
  | cons first written ih =>
      cases written with
      | nil => exact ⟨first, List.mem_cons_self, inside⟩
      | cons second written =>
          rcases infix_of_infix_append_cons solid inside with here | later
          · exact ⟨first, List.mem_cons_self, here⟩
          · obtain ⟨piece, member, found⟩ := ih later
            exact ⟨piece, List.mem_cons_of_mem first member, found⟩

theorem infix_join (separator : Char) {written : List (List Char)} {piece : List Char}
    (member : piece ∈ written) : piece <:+: join separator written := by
  induction written with
  | nil => contradiction
  | cons first written ih =>
      cases written with
      | nil =>
          rw [List.mem_singleton.mp member]
          exact List.infix_rfl
      | cons second written =>
          rw [join]
          rcases List.mem_cons.mp member with rfl | later
          · exact (List.prefix_append _ _).isInfix
          · exact (ih later).trans ⟨first ++ [separator], [], by simp⟩

/-- A pattern that begins with a solid character does not begin among blanks. -/
theorem infix_of_infix_gap_append {gap : List Char} (isGap : IsGap gap) (filled : pattern ≠ [])
    (start : ∀ character ∈ pattern.head?, isBlank character = false)
    (inside : pattern <:+: gap ++ rest) : pattern <:+: rest := by
  induction gap with
  | nil => exact inside
  | cons blank gap ih =>
      obtain ⟨here, others⟩ := List.forall_mem_cons.mp isGap
      rcases List.infix_cons_iff.mp inside with begins | later
      · rcases List.prefix_cons_iff.mp begins with empty | ⟨tail, rfl, -⟩
        · exact absurd empty filled
        · have solid := start blank rfl
          rw [here] at solid
          contradiction
      · exact ih others later

/-- Blanks around a text make no difference for a trimmed pattern. -/
theorem infix_gap_append_gap_iff (filled : pattern ≠ []) (trimmed : IsTrimmed pattern)
    (frontGap : IsGap front) (backGap : IsGap back) :
    pattern <:+: front ++ text ++ back ↔ pattern <:+: text := by
  constructor
  · intro inside
    rw [List.append_assoc] at inside
    have inFront := infix_of_infix_gap_append frontGap filled trimmed.start inside
    rw [← List.reverse_infix, List.reverse_append] at inFront
    have inText := infix_of_infix_gap_append backGap.reverse (by simpa using filled)
      (by rw [List.head?_reverse]; exact trimmed.finish) inFront
    exact List.reverse_infix.mp inText
  · rintro ⟨before, after, rfl⟩
    exact ⟨front ++ before, after ++ back, by simp⟩

end IncludeGate.Text
