/-!
# Searching a text

`cut` finds the first place where a pattern occurs and gives the text before
and after it; containment and the search for the earliest of several patterns
are read off it.  Containment and endings are plain: no character of a pattern
has a special meaning, and an empty pattern occurs everywhere.
-/

namespace IncludeGate.Text

/-- The rest of a text after a given beginning. -/
def dropStart? : List Char → List Char → Option (List Char)
  | [], text => some text
  | _ :: _, [] => none
  | expected :: pattern, character :: text =>
      if expected = character then dropStart? pattern text else none

/-- The text before and after the first occurrence of a pattern. -/
def cut (pattern : List Char) : List Char → Option (List Char × List Char)
  | [] => (dropStart? pattern []).map fun rest => ([], rest)
  | character :: text =>
      match dropStart? pattern (character :: text) with
      | some rest => some ([], rest)
      | none => (cut pattern text).map fun (before, rest) => (character :: before, rest)

/-- Whether a pattern occurs in a text. -/
def occursIn (pattern text : List Char) : Bool :=
  (cut pattern text).isSome

theorem dropStart?_eq_some_iff {pattern text rest : List Char} :
    dropStart? pattern text = some rest ↔ text = pattern ++ rest := by
  induction pattern generalizing text with
  | nil => simp [dropStart?]
  | cons expected pattern ih =>
      cases text with
      | nil => simp [dropStart?]
      | cons character text =>
          by_cases same : expected = character
          · simp [dropStart?, same, ih]
          · simp only [dropStart?, if_neg same, List.cons_append, List.cons.injEq]
            constructor
            · simp
            · intro equal
              exact absurd equal.1.symm same

@[simp] theorem dropStart?_append (pattern rest : List Char) :
    dropStart? pattern (pattern ++ rest) = some rest :=
  dropStart?_eq_some_iff.mpr rfl

/-- A character that is not in the pattern stays behind. -/
theorem dropStart?_concat {pattern : List Char} {last : Char} (other : last ∉ pattern)
    (text : List Char) :
    dropStart? pattern (text ++ [last]) = (dropStart? pattern text).map (· ++ [last]) := by
  induction pattern generalizing text with
  | nil => rfl
  | cons expected pattern ih =>
      have differ : expected ≠ last := fun equal => other (equal ▸ List.mem_cons_self)
      have rest := ih fun member => other (List.mem_cons_of_mem _ member)
      cases text with
      | nil => simp [dropStart?, differ]
      | cons character text =>
          by_cases same : expected = character <;> simp [dropStart?, same, rest]

/-- What `cut` gives, put together again with the pattern, is the text. -/
theorem eq_append_of_cut {pattern text before rest : List Char}
    (found : cut pattern text = some (before, rest)) :
    text = before ++ pattern ++ rest := by
  induction text generalizing before with
  | nil =>
      simp only [cut, Option.map_eq_some_iff] at found
      obtain ⟨tail, here, equal⟩ := found
      simp only [Prod.mk.injEq] at equal
      obtain ⟨rfl, rfl⟩ := equal
      simpa using dropStart?_eq_some_iff.mp here
  | cons character text ih =>
      unfold cut at found
      split at found
      · rename_i tail here
        simp only [Option.some.injEq, Prod.mk.injEq] at found
        obtain ⟨rfl, rfl⟩ := found
        simpa using dropStart?_eq_some_iff.mp here
      · simp only [Option.map_eq_some_iff, Prod.exists, Prod.mk.injEq] at found
        obtain ⟨front, tail, later, rfl, rfl⟩ := found
        simp [ih later]

/-- A text has a pattern in it exactly when it is the pattern with something
before and something after it. -/
theorem occursIn_iff {pattern text : List Char} :
    occursIn pattern text = true ↔ ∃ before rest, text = before ++ pattern ++ rest := by
  constructor
  · intro found
    obtain ⟨⟨before, rest⟩, equal⟩ := Option.isSome_iff_exists.mp found
    exact ⟨before, rest, eq_append_of_cut equal⟩
  · rintro ⟨before, rest, rfl⟩
    induction before with
    | nil =>
        cases pattern with
        | nil => cases rest <;> simp [occursIn, cut, dropStart?]
        | cons character pattern =>
            have here := dropStart?_append (character :: pattern) rest
            simp only [List.cons_append] at here
            simp [occursIn, cut, here]
    | cons character before ih =>
        simp only [occursIn, List.cons_append] at ih ⊢
        unfold cut
        split
        · rfl
        · simpa using ih

theorem occursIn_iff_isInfix {pattern text : List Char} :
    occursIn pattern text = true ↔ pattern <:+: text := by
  rw [occursIn_iff]
  constructor
  · rintro ⟨before, rest, equal⟩
    exact ⟨before, rest, equal.symm⟩
  · rintro ⟨before, rest, equal⟩
    exact ⟨before, rest, equal.symm⟩

end IncludeGate.Text
