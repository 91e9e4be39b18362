import IncludeGate.Proofs.Text.Written

/-!
# Words and numerals as they may be written

A list of words can be written with any blanks between the words and at both ends, and
a number with zeros and a plus sign in front.  Here are all the texts that have given
words, and all the numerals of a number, each next to the function that reads them; so
what a reader accepts can be said without it.
-/

namespace IncludeGate.Text

/-! ## Words -/

/-- Nothing but blanks. -/
def IsGap (text : List Char) : Prop :=
  ∀ character ∈ text, isBlank character = true

instance (text : List Char) : Decidable (IsGap text) :=
  decidable_of_iff (text.all isBlank = true) List.all_eq_true

/-- Characters that stay together when a text is cut at its blanks. -/
structure IsWord (word : List Char) : Prop where
  nonempty : word ≠ []
  solid : ∀ character ∈ word, isBlank character = false

/-- What may stand after a word: nothing, or else a blank first. -/
def EndsWord (text : List Char) : Prop :=
  ∀ character ∈ text.head?, isBlank character = true

/-- The texts with the given words.  Each word is set off from the next one. -/
inductive Spaced : List (List Char) → List Char → Prop where
  | gap {text : List Char} : IsGap text → Spaced [] text
  | word {gap word rest : List Char} {others : List (List Char)} :
      IsGap gap → IsWord word → EndsWord rest → Spaced others rest →
      Spaced (word :: others) (gap ++ word ++ rest)

theorem isGap_nil : IsGap [] := by
  intro character member
  contradiction

theorem isGap_takeWhile (text : List Char) : IsGap (text.takeWhile isBlank) :=
  List.all_eq_true.mp List.all_takeWhile

theorem IsGap.cons {blank : Char} {text : List Char} (here : isBlank blank = true)
    (gap : IsGap text) : IsGap (blank :: text) :=
  List.forall_mem_cons.mpr ⟨here, gap⟩

theorem IsGap.endsWord {text : List Char} (gap : IsGap text) : EndsWord text := by
  intro character first
  exact gap character (List.mem_of_mem_head? first)

theorem endsWord_cons {blank : Char} (here : isBlank blank = true) (text : List Char) :
    EndsWord (blank :: text) := by
  intro character first
  cases first
  exact here

theorem words_gap_append {gap : List Char} (isGap : IsGap gap) (rest : List Char) :
    words (gap ++ rest) = words rest := by
  induction gap with
  | nil => rfl
  | cons blank gap ih =>
      obtain ⟨here, others⟩ := List.forall_mem_cons.mp isGap
      rw [List.cons_append, words, pieces_cons_separator here, List.filter_cons_of_neg (by simp)]
      exact ih others

/-- The first piece of what may stand after a word is empty. -/
theorem EndsWord.pieces_eq {rest : List Char} (ends : EndsWord rest) :
    ∃ others, pieces isBlank rest = [] :: others := by
  cases rest with
  | nil => exact ⟨[], rfl⟩
  | cons blank rest => exact ⟨_, pieces_cons_separator (ends blank rfl) rest⟩

theorem words_word_append {word rest : List Char} (isWord : IsWord word)
    (ends : EndsWord rest) : words (word ++ rest) = word :: words rest := by
  obtain ⟨others, cut⟩ := ends.pieces_eq
  rw [words, words, pieces_append isWord.solid cut, cut, List.append_nil,
    List.filter_cons_of_pos (by simp [isWord.nonempty]), List.filter_cons_of_neg (by simp)]

/-- The words of a text are those that it is written with. -/
theorem Spaced.words_eq {written : List (List Char)} {text : List Char}
    (spaced : Spaced written text) : words text = written := by
  induction spaced with
  | @gap text isGap =>
      rw [← List.append_nil text, words_gap_append isGap]
      rfl
  | word isGap isWord ends _ ih =>
      rw [List.append_assoc, words_gap_append isGap, words_word_append isWord ends, ih]

theorem Spaced.cons_blank {blank : Char} {written : List (List Char)} {text : List Char}
    (here : isBlank blank = true) (spaced : Spaced written text) :
    Spaced written (blank :: text) := by
  cases spaced with
  | gap isGap => exact .gap (isGap.cons here)
  | word isGap isWord ends rest => exact .word (isGap.cons here) isWord ends rest

theorem isWord_singleton {character : Char} (solid : isBlank character = false) :
    IsWord [character] where
  nonempty := List.cons_ne_nil _ _
  solid := List.forall_mem_singleton.mpr solid

/-- Every text has words. -/
theorem exists_spaced (text : List Char) : ∃ written, Spaced written text := by
  induction text with
  | nil => exact ⟨[], .gap isGap_nil⟩
  | cons character text ih =>
      obtain ⟨written, spaced⟩ := ih
      cases solid : isBlank character with
      | true => exact ⟨written, spaced.cons_blank solid⟩
      | false =>
          -- A solid character goes to the word after it, unless a blank comes first.
          cases spaced with
          | gap isGap =>
              exact ⟨_, .word isGap_nil (isWord_singleton solid) isGap.endsWord (.gap isGap)⟩
          | @word gap word rest others isGap isWord ends spaced =>
              cases gap with
              | nil =>
                  have longer : IsWord (character :: word) :=
                    ⟨List.cons_ne_nil _ _, List.forall_mem_cons.mpr ⟨solid, isWord.solid⟩⟩
                  exact ⟨_, .word isGap_nil longer ends spaced⟩
              | cons blank gap =>
                  have apart := endsWord_cons (isGap blank List.mem_cons_self) (gap ++ word ++ rest)
                  exact ⟨_, .word isGap_nil (isWord_singleton solid) apart
                    (.word isGap isWord ends spaced)⟩

theorem words_eq_iff {text : List Char} {written : List (List Char)} :
    words text = written ↔ Spaced written text := by
  constructor
  · rintro rfl
    obtain ⟨written, spaced⟩ := exists_spaced text
    rwa [spaced.words_eq]
  · exact Spaced.words_eq

/-- Words with a space before each of them. -/
theorem spaced_flatMap_space {written : List (List Char)}
    (areWords : ∀ word ∈ written, IsWord word) :
    Spaced written (written.flatMap (' ' :: ·)) := by
  induction written with
  | nil => exact .gap isGap_nil
  | cons word written ih =>
      obtain ⟨isWord, others⟩ := List.forall_mem_cons.mp areWords
      have ends : EndsWord (written.flatMap (' ' :: ·)) := by
        cases written with
        | nil => exact isGap_nil.endsWord
        | cons next written => exact endsWord_cons (by decide) _
      exact .word (isGap_nil.cons (by decide)) isWord ends (ih others)

/-! ## Trimmed texts -/

/-- A text with no blank at either end. -/
structure IsTrimmed (text : List Char) : Prop where
  start : ∀ character ∈ text.head?, isBlank character = false
  finish : ∀ character ∈ text.getLast?, isBlank character = false

theorem trimStart_gap_append {gap : List Char} (isGap : IsGap gap) (rest : List Char) :
    trimStart (gap ++ rest) = trimStart rest :=
  List.dropWhile_append_of_pos isGap

theorem trimStart_of_solid {text : List Char}
    (start : ∀ character ∈ text.head?, isBlank character = false) : trimStart text = text := by
  cases text with
  | nil => rfl
  | cons character text => exact trimStart_cons_of_not_blank (start character rfl)

theorem trimEnd_eq (text : List Char) : trimEnd text = (trimStart text.reverse).reverse := rfl

theorem IsGap.reverse {gap : List Char} (isGap : IsGap gap) : IsGap gap.reverse := by
  intro character member
  exact isGap character (List.mem_reverse.mp member)

theorem trimEnd_append_gap {gap : List Char} (isGap : IsGap gap) (text : List Char) :
    trimEnd (text ++ gap) = trimEnd text := by
  rw [trimEnd_eq, List.reverse_append, trimStart_gap_append isGap.reverse, trimEnd_eq]

theorem trimEnd_of_solid {text : List Char}
    (finish : ∀ character ∈ text.getLast?, isBlank character = false) : trimEnd text = text := by
  rw [trimEnd_eq, trimStart_of_solid, List.reverse_reverse]
  rwa [List.head?_reverse]

/-- Of a trimmed text between blanks, that text is left. -/
theorem trim_gap_append_gap {front text back : List Char} (frontGap : IsGap front)
    (trimmed : IsTrimmed text) (backGap : IsGap back) : trim (front ++ text ++ back) = text := by
  rw [trim, List.append_assoc, trimStart_gap_append frontGap]
  cases text with
  | nil =>
      have nothing := trimStart_gap_append backGap []
      rw [List.append_nil, trimStart_nil] at nothing
      rw [List.nil_append, nothing, trimEnd_nil]
  | cons character text =>
      have solid : isBlank character = false := trimmed.start character rfl
      rw [List.cons_append, trimStart_cons_of_not_blank solid, ← List.cons_append,
        trimEnd_append_gap backGap, trimEnd_of_solid trimmed.finish]

theorem exists_gap_trimStart (text : List Char) :
    ∃ gap, IsGap gap ∧ text = gap ++ trimStart text ∧
      ∀ character ∈ (trimStart text).head?, isBlank character = false := by
  refine ⟨text.takeWhile isBlank, isGap_takeWhile text, List.takeWhile_append_dropWhile.symm, ?_⟩
  intro character first
  have solid := List.head?_dropWhile_not isBlank text
  rwa [show (text.dropWhile isBlank).head? = some character from first] at solid

theorem exists_trimEnd_gap (text : List Char) :
    ∃ gap, IsGap gap ∧ text = trimEnd text ++ gap ∧
      ∀ character ∈ (trimEnd text).getLast?, isBlank character = false := by
  obtain ⟨gap, isGap, equal, solid⟩ := exists_gap_trimStart text.reverse
  refine ⟨gap.reverse, isGap.reverse, ?_, ?_⟩
  · rw [trimEnd_eq, ← List.reverse_append, ← equal, List.reverse_reverse]
  · rwa [trimEnd_eq, List.getLast?_reverse]

theorem isTrimmed_trim (text : List Char) : IsTrimmed (trim text) := by
  obtain ⟨-, -, -, start⟩ := exists_gap_trimStart text
  obtain ⟨back, -, equal, finish⟩ := exists_trimEnd_gap (trimStart text)
  refine ⟨?_, finish⟩
  intro character first
  apply start
  rw [equal, List.head?_append, show (trimEnd (trimStart text)).head? = _ from first]
  rfl

theorem isTrimmed_iff_trim_eq {text : List Char} : IsTrimmed text ↔ trim text = text := by
  constructor
  · intro trimmed
    have bare := trim_gap_append_gap isGap_nil trimmed isGap_nil
    rwa [List.nil_append, List.append_nil] at bare
  · intro same
    rw [← same]
    exact isTrimmed_trim text

instance (text : List Char) : Decidable (IsTrimmed text) :=
  decidable_of_iff _ isTrimmed_iff_trim_eq.symm

/-- What is left out of a text by trimming it are blanks. -/
theorem exists_trim_eq (text : List Char) :
    ∃ front back, IsGap front ∧ IsGap back ∧ text = front ++ trim text ++ back := by
  obtain ⟨front, frontGap, frontEqual, -⟩ := exists_gap_trimStart text
  obtain ⟨back, backGap, backEqual, -⟩ := exists_trimEnd_gap (trimStart text)
  exact ⟨front, back, frontGap, backGap, by rw [List.append_assoc, trim, ← backEqual, ← frontEqual]⟩

theorem IsGap.append {front back : List Char} (first : IsGap front) (second : IsGap back) :
    IsGap (front ++ back) :=
  List.forall_mem_append.mpr ⟨first, second⟩

theorem isGap_of_trim_eq_nil {text : List Char} (empty : trim text = []) : IsGap text := by
  obtain ⟨front, back, frontGap, backGap, equal⟩ := exists_trim_eq text
  rw [equal, empty, List.append_nil]
  exact frontGap.append backGap

theorem trim_isInfix (text : List Char) : trim text <:+: text := by
  obtain ⟨front, back, -, -, equal⟩ := exists_trim_eq text
  exact ⟨front, back, equal.symm⟩

theorem trim_append_gap {gap : List Char} (isGap : IsGap gap) (text : List Char) :
    trim (text ++ gap) = trim text := by
  obtain ⟨front, back, frontGap, backGap, equal⟩ := exists_trim_eq text
  rw [equal, List.append_assoc,
    trim_gap_append_gap frontGap (isTrimmed_trim text) (backGap.append isGap), ← equal]

@[simp] theorem trim_dropReturn (line : List Char) : trim (dropReturn line) = trim line := by
  unfold dropReturn
  split
  · rename_i ends
    obtain ⟨front, rfl⟩ := List.getLast?_eq_some_iff.mp ends
    rw [List.dropLast_concat, trim_append_gap (isGap_nil.cons (by decide))]
  · rfl

/-! ## Numerals -/

/-- Decimal digits, at least one. -/
structure IsDigits (digits : List Char) : Prop where
  nonempty : digits ≠ []
  decimal : ∀ digit ∈ digits, isDigit digit = true

/-- The numerals of a number: digits of that value, with a plus sign or without. -/
inductive Numeral : List Char → Nat → Prop where
  | plain {digits : List Char} : IsDigits digits → Numeral digits (digitsValue digits)
  | signed {digits : List Char} :
      IsDigits digits → Numeral ('+' :: digits) (digitsValue digits)

theorem isBlank_of_isDigit {character : Char} (digit : isDigit character = true) :
    isBlank character = false := by
  simp only [isDigit, Bool.and_eq_true, decide_eq_true_eq] at digit
  simp only [isBlank, Bool.or_eq_false_iff, Bool.and_eq_false_iff, decide_eq_false_iff_not,
    beq_eq_false_iff_ne]
  simp at digit
  omega

theorem isDigit_of_isBlank {character : Char} (blank : isBlank character = true) :
    isDigit character = false := by
  apply Bool.eq_false_iff.mpr
  intro digit
  rw [isBlank_of_isDigit digit] at blank
  contradiction

theorem IsDigits.isWord {digits : List Char} (isDigits : IsDigits digits) : IsWord digits where
  nonempty := isDigits.nonempty
  solid digit member := isBlank_of_isDigit (isDigits.decimal digit member)

theorem isDigits_toDigits (number : Nat) : IsDigits (Nat.toDigits 10 number) where
  nonempty := Nat.toDigits_ne_nil
  decimal _ := isDigit_of_mem_toDigits

theorem readDigits?_eq_some_iff {text : List Char} {value : Nat} :
    readDigits? text = some value ↔ IsDigits text ∧ digitsValue text = value := by
  have accepted : (!text.isEmpty && text.all isDigit) = true ↔ IsDigits text := by
    rw [Bool.and_eq_true, List.all_eq_true, Bool.not_eq_true', List.isEmpty_eq_false_iff]
    exact ⟨fun both => ⟨both.1, both.2⟩, fun digits => ⟨digits.nonempty, digits.decimal⟩⟩
  rw [readDigits?, Option.ite_none_right_eq_some, accepted, Option.some.injEq]

theorem IsDigits.ne_plus {digits : List Char} (isDigits : IsDigits digits)
    (rest : List Char) : digits ≠ '+' :: rest := by
  rintro rfl
  exact absurd (isDigits.decimal '+' List.mem_cons_self) (by decide)

/-- Numerals are read up to a limit, and nothing else is read. -/
theorem readUnsigned?_eq_some_iff {limit value : Nat} {text : List Char} :
    readUnsigned? limit text = some value ↔ Numeral text value ∧ value < limit := by
  unfold readUnsigned?
  rw [Option.filter_eq_some_iff, readDigits?_eq_some_iff, decide_eq_true_iff]
  refine and_congr_left fun _ => ?_
  split
  · rename_i rest
    constructor
    · rintro ⟨digits, rfl⟩
      exact .signed digits
    · intro numeral
      cases numeral with
      | plain digits => exact absurd rfl (digits.ne_plus rest)
      | signed digits => exact ⟨digits, rfl⟩
  · rename_i unsigned
    constructor
    · rintro ⟨digits, rfl⟩
      exact .plain digits
    · intro numeral
      cases numeral with
      | plain digits => exact ⟨digits, rfl⟩
      | signed digits => exact absurd rfl (unsigned _)

/-- A fixed-width number is read from exactly the numerals of its value. -/
theorem map_readUnsigned?_eq_some_iff {Word : Type} {limit : Nat} {ofNat : Nat → Word}
    {toNat : Word → Nat} (below : ∀ word, toNat word < limit)
    (ofNat_toNat : ∀ word, ofNat (toNat word) = word)
    (toNat_ofNat : ∀ value < limit, toNat (ofNat value) = value) {text : List Char} {word : Word} :
    (readUnsigned? limit text).map ofNat = some word ↔ Numeral text (toNat word) := by
  rw [Option.map_eq_some_iff]
  constructor
  · rintro ⟨value, read, rfl⟩
    obtain ⟨numeral, inRange⟩ := readUnsigned?_eq_some_iff.mp read
    rwa [toNat_ofNat value inRange]
  · intro numeral
    exact ⟨toNat word, readUnsigned?_eq_some_iff.mpr ⟨numeral, below word⟩, ofNat_toNat word⟩

theorem readUInt8?_eq_some_iff {text : List Char} {number : UInt8} :
    readUInt8? text = some number ↔ Numeral text number.toNat :=
  map_readUnsigned?_eq_some_iff UInt8.toNat_lt (fun _ => UInt8.ofNat_toNat)
    fun _ => UInt8.toNat_ofNat_of_lt'

theorem readUInt32?_eq_some_iff {text : List Char} {number : UInt32} :
    readUInt32? text = some number ↔ Numeral text number.toNat :=
  map_readUnsigned?_eq_some_iff UInt32.toNat_lt (fun _ => UInt32.ofNat_toNat)
    fun _ => UInt32.toNat_ofNat_of_lt'

theorem exists_readUInt8?_iff {text : List Char} :
    (∃ number, readUInt8? text = some number) ↔ ∃ value < UInt8.size, Numeral text value := by
  constructor
  · rintro ⟨number, read⟩
    exact ⟨number.toNat, number.toNat_lt, readUInt8?_eq_some_iff.mp read⟩
  · rintro ⟨value, below, numeral⟩
    refine ⟨UInt8.ofNat value, readUInt8?_eq_some_iff.mpr ?_⟩
    rwa [UInt8.toNat_ofNat_of_lt' below]

/-- Digits alone are read as their value. -/
theorem IsDigits.readUInt32?_eq_some_iff {digits : List Char} (isDigits : IsDigits digits)
    {number : UInt32} : readUInt32? digits = some number ↔ digitsValue digits = number.toNat := by
  rw [Text.readUInt32?_eq_some_iff]
  generalize number.toNat = value
  constructor
  · intro numeral
    cases numeral with
    | plain => rfl
    | signed => exact absurd rfl (isDigits.ne_plus _)
  · rintro rfl
    exact .plain isDigits

theorem isDigits_takeWhile {text : List Char} {number : UInt32}
    (read : readUInt32? (text.takeWhile isDigit) = some number) :
    IsDigits (text.takeWhile isDigit) where
  nonempty empty := by
    rw [empty] at read
    contradiction
  decimal := List.all_eq_true.mp List.all_takeWhile

end IncludeGate.Text
