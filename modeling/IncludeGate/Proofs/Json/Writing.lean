import IncludeGate.Json.Reader
import IncludeGate.Json.Writer
import IncludeGate.Proofs.Text.Written

/-!
# Written values read back

The reader takes back what `pretty` writes, if the value is plain: its whole numbers are of
the range that the reader keeps apart from other numbers, it has no other numbers, and no
object has a key twice.

Strings are read character by character and numbers digit by digit.  For arrays and objects
the fuel matters: every value is read with as much fuel as its text is long, so what a text
has in front of a part of it pays for the calls that lead there.
-/

namespace IncludeGate.Json

open Text

/-! ## Strings -/

theorem hexValue?_hexDigit : ∀ value < 16, hexValue? (hexDigit value) = some value := by
  decide

/-- Four hexadecimal digits for a number of eight bits. -/
theorem readUnit?_hexDigits {value : Nat} (small : value < 0x100) (rest : List Char) :
    readUnit? ('0' :: '0' :: hexDigit (value / 16) :: hexDigit (value % 16) :: rest) =
      some (value, rest) := by
  have high := hexValue?_hexDigit (value / 16) (by omega)
  have low := hexValue?_hexDigit (value % 16) (by omega)
  have zero : hexValue? '0' = some 0 := rfl
  have sum : value / 16 * 16 + value % 16 = value := by omega
  simp [readUnit?, high, low, zero, sum]

/-- An escaped character is read as that character. -/
theorem readString?_escapeChar (fuel : Nat) (character : Char) (rest : List Char) :
    readString? (fuel + 1) (escapeChar character ++ rest) =
      (readString? fuel rest).map fun (text, after) => (character :: text, after) := by
  have read : ∀ escaped, readEscape? (escaped ++ rest) = some (character, rest) →
      readString? (fuel + 1) ('\\' :: escaped ++ rest) =
        (readString? fuel rest).map fun (text, after) => (character :: text, after) := by
    intro escaped found
    rw [List.cons_append, readString?, if_neg (by decide), if_pos rfl, found]
    simp only [Option.bind_eq_bind, Option.bind_some]
    cases readString? fuel rest <;> rfl
  have code {value : Nat} (equal : character.toNat = value) : Char.ofNat value = character := by
    rw [← equal, Char.ofNat_toNat]
  unfold escapeChar
  split
  · rename_i quote
    subst quote
    exact read ['"'] rfl
  split
  · rename_i backslash
    subst backslash
    exact read ['\\'] rfl
  split
  · rename_i backspace
    exact read ['b'] (by rw [← code backspace]; rfl)
  split
  · rename_i feed
    exact read ['f'] (by rw [← code feed]; rfl)
  split
  · rename_i newline
    subst newline
    exact read ['n'] rfl
  split
  · rename_i carriage
    subst carriage
    exact read ['r'] rfl
  split
  · rename_i tab
    subst tab
    exact read ['t'] rfl
  split
  · rename_i control
    apply read ['u', '0', '0', hexDigit (character.toNat / 16), hexDigit (character.toNat % 16)]
    have unit := readUnit?_hexDigits (Nat.lt_trans control (by decide)) rest
    have noPair : ¬ (0xD800 ≤ character.toNat ∧ character.toNat < 0xDC00) := by omega
    have noSecond : ¬ (0xDC00 ≤ character.toNat ∧ character.toNat < 0xE000) := by omega
    simp [readEscape?, readEscapedUnit?, unit, noPair, noSecond, Char.ofNat_toNat]
  · rename_i noQuote noBackslash _ _ _ _ _ printable
    rw [List.singleton_append, readString?, if_neg noQuote, if_neg noBackslash,
      if_neg printable]
    cases readString? fuel rest <;> rfl

/-- An escaped text is read up to the quote that closes it. -/
theorem readString?_escaped {fuel : Nat} {text : List Char} (rest : List Char)
    (enough : text.length < fuel) :
    readString? fuel (text.flatMap escapeChar ++ '"' :: rest) = some (text, rest) := by
  induction text generalizing fuel with
  | nil =>
      cases fuel with
      | zero => contradiction
      | succ fuel => simp [readString?]
  | cons character text ih =>
      cases fuel with
      | zero => contradiction
      | succ fuel =>
          rw [List.flatMap_cons, List.append_assoc, readString?_escapeChar,
            ih (Nat.lt_of_succ_lt_succ enough)]
          rfl

theorem escapeChar_ne_nil (character : Char) : escapeChar character ≠ [] := by
  unfold escapeChar
  repeat' split
  all_goals exact List.cons_ne_nil _ _

theorem length_le_escaped (text : List Char) :
    text.length ≤ (text.flatMap escapeChar).length := by
  induction text with
  | nil => exact Nat.le_refl _
  | cons character text ih =>
      have one := List.length_pos_iff.mpr (escapeChar_ne_nil character)
      rw [List.flatMap_cons, List.length_append, List.length_cons]
      omega

theorem quoted_eq (text : String) (rest : List Char) :
    quoted text ++ rest = '"' :: (text.toList.flatMap escapeChar ++ '"' :: rest) := by
  simp [quoted]

/-- The fuel for a string is the length of what is left, which is enough for any text that
is quoted there. -/
theorem readString?_quoted (text : String) (rest : List Char) :
    readString? ((text.toList.flatMap escapeChar ++ '"' :: rest).length + 1)
        (text.toList.flatMap escapeChar ++ '"' :: rest) = some (text.toList, rest) := by
  apply readString?_escaped
  have := length_le_escaped text.toList
  simp only [List.length_append, List.length_cons]
  omega

/-! ## Whole numbers -/

/-- What may stand after a number: nothing that goes on with it. -/
def EndsNumber (rest : List Char) : Prop :=
  ∀ next ∈ rest.head?, isDigit next = false ∧ next ≠ '.' ∧ next ≠ 'e' ∧ next ≠ 'E'

theorem readExponent?_of_endsNumber {rest : List Char} (ends : EndsNumber rest) :
    readExponent? rest = some (none, rest) := by
  cases rest with
  | nil => rfl
  | cons next rest =>
      obtain ⟨-, -, noMark, noCapital⟩ := ends next rfl
      simp [readExponent?, noMark, noCapital]

theorem spanDigits_append {digits rest : List Char}
    (allDigits : ∀ digit ∈ digits, isDigit digit = true) (ends : EndsNumber rest) :
    spanDigits (digits ++ rest) = (digits, rest) := by
  have run := span_append allDigits fun next first => (ends next first).1
  rw [spanDigits, run.1, run.2]

theorem eq_zero_of_digitChar_eq : ∀ value < 10, Nat.digitChar value = '0' → value = 0 := by
  decide

/-- Only zero is written with a zero in front. -/
theorem eq_zero_of_head?_toDigits {number : Nat}
    (zero : (Nat.toDigits 10 number).head? = some '0') : number = 0 := by
  induction number using Nat.strongRecOn with
  | _ number ih =>
      by_cases small : number < 10
      · rw [Nat.toDigits_of_lt_base small] at zero
        exact eq_zero_of_digitChar_eq number small (Option.some.inj zero)
      · rw [Nat.toDigits_of_base_le (by decide) (Nat.le_of_not_lt small),
          List.head?_append, Option.or_eq_some_iff] at zero
        rcases zero with zero | ⟨none, -⟩
        · have := ih (number / 10) (by omega) zero
          omega
        · exact absurd (List.head?_eq_none_iff.mp none) Nat.toDigits_ne_nil

/-- Digits of a number have no superfluous zero in front. -/
theorem not_leading_zero (number : Nat) :
    ¬ ((Nat.toDigits 10 number).isEmpty = true ∨
      ((Nat.toDigits 10 number).length > 1 ∧ (Nat.toDigits 10 number).head? = some '0')) := by
  rintro (empty | ⟨long, zero⟩)
  · exact Nat.toDigits_ne_nil (List.isEmpty_iff.mp empty)
  · rw [eq_zero_of_head?_toDigits zero] at long
    exact absurd long (by decide)

/-- The text of a whole number. -/
def integerText : Int → List Char
  | .ofNat number => Nat.toDigits 10 number
  | .negSucc number => '-' :: Nat.toDigits 10 (number + 1)

theorem scalarText_integer (value : Int) : scalarText (integer value) = integerText value := by
  cases value with
  | ofNat number => exact Nat.toList_repr
  | negSucc number =>
      have text : (toString (Int.negSucc number)).toList =
          ("-" ++ toString (number + 1)).toList := rfl
      rw [scalarText, text, String.toList_append]
      exact congrArg ('-' :: ·) Nat.toList_repr

/-- Whole numbers that are kept apart from other numbers. -/
def IsWhole (value : Int) : Prop :=
  -(Nat.pow 2 63 : Nat) ≤ value ∧ value < (Nat.pow 2 64 : Nat)

theorem readNumber?_integerText {value : Int} (whole : IsWhole value) {rest : List Char}
    (ends : EndsNumber rest) :
    readNumber? (integerText value ++ rest) = some (integer value, rest) := by
  have noPoint : ∀ after, rest ≠ '.' :: after := by
    rintro after rfl
    exact (ends '.' rfl).2.1 rfl
  have span (number : Nat) :
      spanDigits (Nat.toDigits 10 number ++ rest) = (Nat.toDigits 10 number, rest) :=
    spanDigits_append (fun _ => isDigit_of_mem_toDigits) ends
  obtain ⟨above, below⟩ := whole
  cases value with
  | ofNat number =>
      have noSign : ∀ after, Nat.toDigits 10 number ++ rest ≠ '-' :: after := by
        intro after equal
        cases digits : Nat.toDigits 10 number with
        | nil => exact Nat.toDigits_ne_nil digits
        | cons first others =>
            rw [digits] at equal
            have sign : '-' ∈ Nat.toDigits 10 number := by
              rw [digits, (List.cons.inj equal).1]
              exact List.mem_cons_self
            exact absurd (isDigit_of_mem_toDigits sign) (by decide)
      have small : number < Nat.pow 2 64 := Int.ofNat_lt.mp below
      simp only [readNumber?, integerText, span, not_leading_zero,
        readExponent?_of_endsNumber ends, digitsValue_toDigits, if_false, Option.bind_eq_bind,
        Option.bind_some]
      simp [small]
  | negSucc number =>
      have small : number + 1 ≤ Nat.pow 2 63 := by
        rw [Int.negSucc_eq] at above
        omega
      simp only [readNumber?, integerText, List.cons_append, span, not_leading_zero,
        readExponent?_of_endsNumber ends, digitsValue_toDigits, if_false, Option.bind_eq_bind,
        Option.bind_some]
      simp [small, Int.negSucc_eq]

/-! ## Values -/

/-- Values that a text keeps: no floating point, whole numbers of 64 bits and no key twice in
an object. -/
inductive IsPlain : Json → Prop where
  | null : IsPlain null
  | bool (value : Bool) : IsPlain (bool value)
  | integer {value : Int} : IsWhole value → IsPlain (integer value)
  | string (value : String) : IsPlain (string value)
  | array {items : List Json} : (∀ item ∈ items, IsPlain item) → IsPlain (array items)
  | object {members : List (String × Json)} :
      (members.map (·.1)).Nodup → (∀ member ∈ members, IsPlain member.2) →
      IsPlain (object members)

/-- Characters with which a value may begin. -/
def opensValue (first : Char) : Bool :=
  ['\x7b', '[', '"', 'n', 't', 'f', '-'].contains first || isDigit first

theorem exists_integerText (value : Int) :
    ∃ first others, integerText value = first :: others ∧
      (first = '-' ∨ isDigit first = true) := by
  cases value with
  | ofNat number =>
      cases digits : Nat.toDigits 10 number with
      | nil => exact absurd digits Nat.toDigits_ne_nil
      | cons first others =>
          have inside : first ∈ Nat.toDigits 10 number := digits ▸ List.mem_cons_self
          exact ⟨first, others, digits, Or.inr (isDigit_of_mem_toDigits inside)⟩
  | negSucc number => exact ⟨'-', _, rfl, Or.inl rfl⟩

theorem exists_prettyAt {value : Json} (plain : value.IsPlain) (level : Nat) :
    ∃ first others, prettyAt level value = first :: others ∧ opensValue first = true := by
  cases plain with
  | null => exact ⟨'n', _, rfl, rfl⟩
  | bool value => cases value <;> exact ⟨_, _, rfl, rfl⟩
  | @integer value whole =>
      obtain ⟨first, others, written, opens⟩ := exists_integerText value
      refine ⟨first, others, ?_, ?_⟩
      · rw [prettyAt, scalarText_integer, written]
        all_goals nofun
      · rcases opens with rfl | digit
        · rfl
        · simp [opensValue, digit]
  | string value => exact ⟨'"', _, rfl, rfl⟩
  | @array items _ => cases items <;> exact ⟨'[', _, rfl, rfl⟩
  | @object members _ _ => cases members <;> exact ⟨'\x7b', _, rfl, rfl⟩

/-! ## Blanks -/

theorem skipBlanks_of_opensValue {first : Char} (opens : opensValue first = true)
    (rest : List Char) : skipBlanks (first :: rest) = first :: rest := by
  have differ {blank : Char} (closed : opensValue blank = false) : first ≠ blank := by
    rintro rfl
    exact Bool.eq_false_iff.mp closed opens
  have noSpace : first ≠ ' ' := differ (by decide)
  have noTab : first ≠ '\t' := differ (by decide)
  have noFeed : first ≠ '\n' := differ (by decide)
  have noReturn : first ≠ '\r' := differ (by decide)
  simp [skipBlanks, noSpace, noTab, noFeed, noReturn]

theorem skipBlanks_newLine (level : Nat) (rest : List Char) :
    skipBlanks (newLine level ++ rest) = skipBlanks rest := by
  rw [newLine, List.cons_append, skipBlanks, List.dropWhile_cons_of_pos (by decide),
    List.dropWhile_append_of_pos]
  · rfl
  · intro blank member
    rw [List.eq_of_mem_replicate member]
    decide

theorem skipBlanks_newLine_prettyAt {value : Json} (plain : value.IsPlain) (level inner : Nat)
    (rest : List Char) :
    skipBlanks (newLine level ++ (prettyAt inner value ++ rest)) =
      prettyAt inner value ++ rest := by
  obtain ⟨first, others, written, opens⟩ := exists_prettyAt plain inner
  rw [skipBlanks_newLine, written, List.cons_append, skipBlanks_of_opensValue opens]

/-! ## Reading values -/

/-- A value is read from its text, whatever follows, with as much fuel as the text is long. -/
def ReadsBack (value : Json) : Prop :=
  ∀ level fuel rest, EndsNumber rest → (prettyAt level value).length ≤ fuel →
    readValue? fuel (prettyAt level value ++ rest) = some (value, rest)

theorem endsNumber_cons {next : Char} {rest : List Char}
    (other : isDigit next = false ∧ next ≠ '.' ∧ next ≠ 'e' ∧ next ≠ 'E') :
    EndsNumber (next :: rest) := by
  rintro character member
  cases Option.mem_some.mp member
  exact other

theorem endsNumber_prettyItems (level : Nat) (items : List Json) (rest : List Char) :
    EndsNumber (prettyItems level items ++ rest) := by
  cases items <;> exact endsNumber_cons (by decide)

theorem endsNumber_prettyMembers (level : Nat) (members : List (String × Json))
    (rest : List Char) : EndsNumber (prettyMembers level members ++ rest) := by
  cases members <;> exact endsNumber_cons (by decide)

theorem readValue?_number (fuel : Nat) {first : Char} (others : List Char)
    (opens : first = '-' ∨ isDigit first = true) :
    readValue? (fuel + 1) (first :: others) = readNumber? (first :: others) := by
  have differ {other : Char} (closed : ¬ (other = '-' ∨ isDigit other = true)) :
      first ≠ other := by
    rintro rfl
    exact closed opens
  have noBrace : first ≠ '\x7b' := differ (by decide)
  have noBracket : first ≠ '[' := differ (by decide)
  have noQuote : first ≠ '"' := differ (by decide)
  rw [readValue?, if_neg noBrace, if_neg noBracket, if_neg noQuote]
  split
  · rename_i equal
    exact absurd (List.cons.inj equal).1 (differ (by decide))
  · rename_i equal
    exact absurd (List.cons.inj equal).1 (differ (by decide))
  · rename_i equal
    exact absurd (List.cons.inj equal).1 (differ (by decide))
  · rfl

theorem readsBack_integer {value : Int} (whole : IsWhole value) : ReadsBack (integer value) := by
  intro level fuel rest ends enough
  obtain ⟨first, others, written, opens⟩ := exists_integerText value
  have text : prettyAt level (integer value) = first :: others := by
    rw [prettyAt, scalarText_integer, written]
    all_goals nofun
  cases fuel with
  | zero =>
      rw [text] at enough
      contradiction
  | succ fuel =>
      rw [text, List.cons_append, readValue?_number fuel _ opens, ← List.cons_append, ← written,
        readNumber?_integerText whole ends]

theorem readsBack_string (value : String) : ReadsBack (string value) := by
  intro level fuel rest ends enough
  have text : prettyAt level (string value) ++ rest =
      '"' :: (value.toList.flatMap escapeChar ++ '"' :: rest) := by
    rw [prettyAt, scalarText, quoted_eq]
    all_goals nofun
  cases fuel with
  | zero => contradiction
  | succ fuel =>
      rw [text, readValue?, if_neg (by decide), if_neg (by decide), if_pos rfl,
        readString?_quoted]
      simp

theorem skipBlanks_prettyItems_nil (level : Nat) (rest : List Char) :
    skipBlanks (prettyItems level [] ++ rest) = ']' :: rest := by
  rw [prettyItems, List.append_assoc, skipBlanks_newLine]
  rfl

theorem skipBlanks_prettyItems_cons (level : Nat) (item : Json) (items : List Json)
    (rest : List Char) :
    skipBlanks (prettyItems level (item :: items) ++ rest) =
      ',' :: (newLine (level + 1) ++
        (prettyAt (level + 1) item ++ (prettyItems level items ++ rest))) := by
  simp [prettyItems, skipBlanks]

theorem length_prettyItems_cons (level : Nat) (item : Json) (items : List Json) :
    (prettyAt (level + 1) item).length + (prettyItems level items).length <
      (prettyItems level (item :: items)).length := by
  simp only [prettyItems, List.length_append, List.length_cons]
  omega

/-- The items of an array are read up to the bracket that closes it. -/
theorem readItems?_prettyItems {level fuel : Nat} {first : Json} {items : List Json}
    (plain : ∀ item ∈ items, item.IsPlain) (readBack : ∀ item ∈ first :: items, ReadsBack item)
    (rest : List Char)
    (enough : (prettyAt (level + 1) first).length + (prettyItems level items).length ≤ fuel) :
    readItems? fuel (prettyAt (level + 1) first ++ (prettyItems level items ++ rest)) =
      some (first :: items, rest) := by
  induction items generalizing first fuel with
  | nil =>
      obtain ⟨itself, -⟩ := List.forall_mem_cons.mp readBack
      have ends := endsNumber_prettyItems level [] rest
      have close : 0 < (prettyItems level []).length := by simp [prettyItems]
      cases fuel with
      | zero => omega
      | succ fuel =>
          rw [readItems?, itself _ _ _ ends (by omega)]
          simp [skipBlanks_prettyItems_nil]
  | cons next items ih =>
      obtain ⟨itself, others⟩ := List.forall_mem_cons.mp readBack
      obtain ⟨plainNext, plainItems⟩ := List.forall_mem_cons.mp plain
      have ends := endsNumber_prettyItems level (next :: items) rest
      have shorter := length_prettyItems_cons level next items
      cases fuel with
      | zero => omega
      | succ fuel =>
          have onward : readItems? fuel
              (prettyAt (level + 1) next ++ (prettyItems level items ++ rest)) =
                some (next :: items, rest) := ih plainItems others (by omega)
          rw [readItems?, itself _ _ _ ends (by omega)]
          simp [skipBlanks_prettyItems_cons, skipBlanks_newLine_prettyAt plainNext, onward]

theorem readsBack_array {items : List Json} (plain : ∀ item ∈ items, item.IsPlain)
    (readBack : ∀ item ∈ items, ReadsBack item) : ReadsBack (array items) := by
  intro level fuel rest ends enough
  cases fuel with
  | zero => cases items <;> simp [prettyAt] at enough
  | succ fuel =>
      cases items with
      | nil => simp [prettyAt, readValue?, skipBlanks]
      | cons first items =>
          obtain ⟨plainFirst, plainItems⟩ := List.forall_mem_cons.mp plain
          have text : prettyAt level (array (first :: items)) ++ rest =
              '[' :: (newLine (level + 1) ++
                (prettyAt (level + 1) first ++ (prettyItems level items ++ rest))) := by
            simp [prettyAt]
          obtain ⟨head, others, written, opens⟩ := exists_prettyAt plainFirst (level + 1)
          have noClose : head ≠ ']' := by
            rintro rfl
            exact absurd opens (by decide)
          have spare : (prettyAt (level + 1) first).length + (prettyItems level items).length ≤
              fuel := by
            simp only [prettyAt, List.length_append, List.length_cons] at enough
            omega
          have read := readItems?_prettyItems plainItems readBack rest spare
          rw [text, readValue?, if_neg (by decide), if_pos rfl,
            skipBlanks_newLine_prettyAt plainFirst]
          rw [written, List.cons_append] at read ⊢
          simp [noClose, read]

theorem skipBlanks_space_prettyAt {value : Json} (plain : value.IsPlain) (level : Nat)
    (rest : List Char) :
    skipBlanks (' ' :: (prettyAt level value ++ rest)) = prettyAt level value ++ rest := by
  obtain ⟨first, others, written, opens⟩ := exists_prettyAt plain level
  have space : ∀ text, skipBlanks (' ' :: text) = skipBlanks text := fun _ => rfl
  rw [space, written, List.cons_append, skipBlanks_of_opensValue opens]

/-- The text of a member of an object. -/
def prettyMember (level : Nat) (member : String × Json) : List Char :=
  quoted member.1 ++ ':' :: ' ' :: prettyAt (level + 1) member.2

theorem prettyMember_append (level : Nat) (member : String × Json) (rest : List Char) :
    prettyMember level member ++ rest =
      '"' :: (member.1.toList.flatMap escapeChar ++
        '"' :: ':' :: ' ' :: (prettyAt (level + 1) member.2 ++ rest)) := by
  rw [prettyMember, List.append_assoc, quoted_eq]
  rfl

theorem skipBlanks_newLine_prettyMember (level inner : Nat) (member : String × Json)
    (rest : List Char) :
    skipBlanks (newLine level ++ (prettyMember inner member ++ rest)) =
      prettyMember inner member ++ rest := by
  rw [skipBlanks_newLine, prettyMember_append, skipBlanks_of_opensValue rfl]

theorem skipBlanks_prettyMembers_nil (level : Nat) (rest : List Char) :
    skipBlanks (prettyMembers level [] ++ rest) = '\x7d' :: rest := by
  rw [prettyMembers, List.append_assoc, skipBlanks_newLine]
  rfl

theorem skipBlanks_prettyMembers_cons (level : Nat) (member : String × Json)
    (members : List (String × Json)) (rest : List Char) :
    skipBlanks (prettyMembers level (member :: members) ++ rest) =
      ',' :: (newLine (level + 1) ++
        (prettyMember level member ++ (prettyMembers level members ++ rest))) := by
  simp [prettyMembers, prettyMember, skipBlanks]

theorem length_prettyMembers_cons (level : Nat) (member : String × Json)
    (members : List (String × Json)) :
    (prettyMember level member).length + (prettyMembers level members).length <
      (prettyMembers level (member :: members)).length := by
  simp only [prettyMembers, prettyMember, List.length_append, List.length_cons]
  omega

theorem length_prettyAt_lt_prettyMember (level : Nat) (member : String × Json) :
    (prettyAt (level + 1) member.2).length < (prettyMember level member).length := by
  simp only [prettyMember, List.length_append, List.length_cons]
  omega

/-- A member with a new key comes after all others. -/
theorem setMember_of_notMem {key : String} {members : List (String × Json)}
    (fresh : key ∉ members.map (·.1)) (value : Json) :
    setMember key value members = members ++ [(key, value)] := by
  induction members with
  | nil => rfl
  | cons first members ih =>
      rw [List.map_cons, List.mem_cons, not_or] at fresh
      rw [setMember, if_neg (Ne.symm fresh.1), ih fresh.2, List.cons_append]

theorem fresh_of_nodup {before members : List (String × Json)} {first : String × Json}
    (distinct : ((before ++ first :: members).map (·.1)).Nodup) :
    first.1 ∉ before.map (·.1) := by
  rw [List.map_append, List.map_cons] at distinct
  intro member
  exact (List.nodup_append.mp distinct).2.2 _ member _ List.mem_cons_self rfl

/-- How an object goes on behind its first members: it is closed, or there are more. -/
def readAfterMembers? (fuel : Nat) (members : List (String × Json)) (after : List Char) :
    Option (List (String × Json) × List Char) :=
  match skipBlanks after with
  | '\x7d' :: rest => some (members, rest)
  | ',' :: rest => readMembers? fuel members (skipBlanks rest)
  | _ => none

/-- One member is read and put behind those before. -/
theorem readMembers?_prettyMember {level fuel : Nat} {member : String × Json}
    {before : List (String × Json)} (fresh : member.1 ∉ before.map (·.1))
    (plain : member.2.IsPlain) (readBack : ReadsBack member.2) {after : List Char}
    (ends : EndsNumber after) (enough : (prettyAt (level + 1) member.2).length ≤ fuel) :
    readMembers? (fuel + 1) before (prettyMember level member ++ after) =
      readAfterMembers? fuel (before ++ [member]) after := by
  have value := readBack (level + 1) fuel after ends enough
  have colon : ∀ text, skipBlanks (':' :: text) = ':' :: text := fun _ => rfl
  rw [prettyMember_append, readMembers?, readString?_quoted]
  simp only [Option.bind_eq_bind, Option.bind_some, colon, skipBlanks_space_prettyAt plain,
    value, String.ofList_toList, setMember_of_notMem fresh]
  rfl

/-- The members of an object are read up to the brace that closes it, after those read
before. -/
theorem readMembers?_prettyMembers {level fuel : Nat} {first : String × Json}
    {members before : List (String × Json)}
    (distinct : ((before ++ first :: members).map (·.1)).Nodup)
    (plain : ∀ member ∈ first :: members, member.2.IsPlain)
    (readBack : ∀ member ∈ first :: members, ReadsBack member.2) (rest : List Char)
    (enough : (prettyMember level first).length + (prettyMembers level members).length ≤ fuel) :
    readMembers? fuel before (prettyMember level first ++ (prettyMembers level members ++ rest)) =
      some (before ++ first :: members, rest) := by
  induction members generalizing first before fuel with
  | nil =>
      have fresh := fresh_of_nodup distinct
      obtain ⟨plainFirst, -⟩ := List.forall_mem_cons.mp plain
      obtain ⟨itself, -⟩ := List.forall_mem_cons.mp readBack
      have ends := endsNumber_prettyMembers level [] rest
      have longer := length_prettyAt_lt_prettyMember level first
      cases fuel with
      | zero => omega
      | succ fuel =>
          have spare : (prettyAt (level + 1) first.2).length ≤ fuel := by omega
          rw [readMembers?_prettyMember fresh plainFirst itself ends spare]
          simp [readAfterMembers?, skipBlanks_prettyMembers_nil]
  | cons next members ih =>
      have fresh := fresh_of_nodup distinct
      obtain ⟨plainFirst, plainOthers⟩ := List.forall_mem_cons.mp plain
      obtain ⟨itself, others⟩ := List.forall_mem_cons.mp readBack
      have ends := endsNumber_prettyMembers level (next :: members) rest
      have longer := length_prettyAt_lt_prettyMember level first
      have shorter := length_prettyMembers_cons level next members
      have moved : before ++ first :: next :: members = (before ++ [first]) ++ next :: members := by
        simp
      rw [moved] at distinct ⊢
      cases fuel with
      | zero => omega
      | succ fuel =>
          have onward : readMembers? fuel (before ++ [first])
              (prettyMember level next ++ (prettyMembers level members ++ rest)) =
                some ((before ++ [first]) ++ next :: members, rest) :=
            ih distinct plainOthers others (by omega)
          have spare : (prettyAt (level + 1) first.2).length ≤ fuel := by omega
          rw [readMembers?_prettyMember fresh plainFirst itself ends spare]
          simp [readAfterMembers?, skipBlanks_prettyMembers_cons,
            skipBlanks_newLine_prettyMember, onward]

theorem readsBack_object {members : List (String × Json)}
    (distinct : (members.map (·.1)).Nodup) (plain : ∀ member ∈ members, member.2.IsPlain)
    (readBack : ∀ member ∈ members, ReadsBack member.2) : ReadsBack (object members) := by
  intro level fuel rest ends enough
  cases fuel with
  | zero => cases members <;> simp [prettyAt] at enough
  | succ fuel =>
      cases members with
      | nil => simp [prettyAt, readValue?, skipBlanks]
      | cons first members =>
          have text : prettyAt level (object (first :: members)) ++ rest =
              '\x7b' :: (newLine (level + 1) ++
                (prettyMember level first ++ (prettyMembers level members ++ rest))) := by
            simp [prettyAt, prettyMember]
          have spare : (prettyMember level first).length + (prettyMembers level members).length ≤
              fuel := by
            simp only [prettyAt, prettyMember, List.length_append, List.length_cons] at enough ⊢
            omega
          have read : readMembers? fuel []
              (prettyMember level first ++ (prettyMembers level members ++ rest)) =
                some (first :: members, rest) :=
            readMembers?_prettyMembers distinct plain readBack rest spare
          -- The reader first asks whether a brace closes the object; a member begins with a quote.
          rw [text, readValue?, if_pos rfl, skipBlanks_newLine_prettyMember]
          rw [prettyMember_append] at read ⊢
          simp [read]

theorem readsBack_null : ReadsBack null := by
  intro level fuel rest ends enough
  cases fuel with
  | zero => simp [prettyAt, scalarText] at enough
  | succ fuel => rfl

theorem readsBack_bool (value : Bool) : ReadsBack (bool value) := by
  intro level fuel rest ends enough
  cases fuel with
  | zero => cases value <;> simp [prettyAt, scalarText] at enough
  | succ fuel => cases value <;> rfl

/-- Every plain value is read from its text. -/
theorem IsPlain.readsBack {value : Json} (plain : value.IsPlain) : ReadsBack value := by
  induction plain with
  | null => exact readsBack_null
  | bool value => exact readsBack_bool value
  | integer whole => exact readsBack_integer whole
  | string value => exact readsBack_string value
  | array plain ih => exact readsBack_array plain ih
  | object distinct plain ih => exact readsBack_object distinct plain ih

/-- The text of a plain value holds that value. -/
theorem parse?_pretty {value : Json} (plain : value.IsPlain) :
    parse? (pretty value) = some value := by
  obtain ⟨first, others, written, opens⟩ := exists_prettyAt plain 0
  have solid : skipBlanks (pretty value) = pretty value := by
    rw [pretty, written, skipBlanks_of_opensValue opens]
  have enough : (prettyAt 0 value).length ≤ 2 * (pretty value).length + 2 := by
    rw [pretty]
    omega
  have read := plain.readsBack 0 _ [] nofun enough
  rw [List.append_nil, ← pretty] at read
  rw [parse?, solid, read]
  rfl

end IncludeGate.Json
