import IncludeGate.Linemarker
import IncludeGate.Proofs.Sequence
import IncludeGate.Proofs.Text.Words

/-!
# The grammar of line markers

A line is a marker exactly when it can be laid out as a hash, the word `line` or not, a
number, a quoted name and words that are numerals of octets, with blanks between the
parts.  A name goes on up to the first quote that no backslash protects, and an octal
escape, which takes digits only, never reaches past that quote; so the reader and the
grammar agree on where the name ends.

There is at most one layout, because each part is the longest run of its characters.
-/

namespace IncludeGate.Linemarker

open Text

/-! ## Quoted names -/

/-- What may stand between the quotes around a name: a quote or a backslash only behind
a backslash. -/
inductive Quotable : List Char → Prop where
  | nil : Quotable []
  | plain {character : Char} {body : List Char} :
      character ≠ '"' → character ≠ '\\' → Quotable body → Quotable (character :: body)
  | escaped (character : Char) {body : List Char} :
      Quotable body → Quotable ('\\' :: character :: body)

@[simp] theorem readQuoted?_nil : readQuoted? [] = none := by
  rw [readQuoted?.eq_def]

theorem readQuoted?_quote (rest : List Char) : readQuoted? ('"' :: rest) = some ([], rest) := by
  rw [readQuoted?.eq_def]
  simp only [if_pos]

theorem readQuoted?_plain {character : Char} (noQuote : character ≠ '"')
    (noBackslash : character ≠ '\\') (rest : List Char) :
    readQuoted? (character :: rest) = (readQuoted? rest).map fun (octets, after) =>
      (Utf8.encodeChar character ++ octets, after) := by
  rw [readQuoted?.eq_def]
  simp only [if_neg noQuote, if_neg noBackslash]

theorem readQuoted?_escaped {character : Char} (noOctal : octalDigit? character = none)
    (rest : List Char) :
    readQuoted? ('\\' :: character :: rest) = (readQuoted? rest).map fun (octets, after) =>
      (Utf8.encodeChar character ++ octets, after) := by
  rw [readQuoted?, if_neg (by decide), if_pos rfl]
  simp only [noOctal]

theorem readQuoted?_octal {character : Char} {digit : Nat}
    (octal : octalDigit? character = some digit) (rest : List Char) :
    readQuoted? ('\\' :: character :: rest) =
      (readQuoted? (octalRun 2 digit rest).2).map fun (octets, after) =>
        (UInt8.ofNat (octalRun 2 digit rest).1 :: octets, after) := by
  rw [readQuoted?, if_neg (by decide), if_pos rfl]
  simp only [octal]

theorem Quotable.of_octal {character : Char} {digit : Nat} {body : List Char}
    (octal : octalDigit? character = some digit) (quotable : Quotable body) :
    Quotable (character :: body) := by
  apply Quotable.plain _ _ quotable
  · rintro rfl
    contradiction
  · rintro rfl
    contradiction

/-- An octal run takes characters that may stand in a name. -/
theorem exists_octalRun_eq (count value : Nat) (text : List Char) :
    ∃ taken, text = taken ++ (octalRun count value text).2 ∧
      ∀ body, Quotable body → Quotable (taken ++ body) := by
  induction count generalizing value text with
  | zero => exact ⟨[], rfl, fun _ quotable => quotable⟩
  | succ count ih =>
      cases text with
      | nil => exact ⟨[], rfl, fun _ quotable => quotable⟩
      | cons character text =>
          rw [octalRun]
          cases octal : octalDigit? character with
          | none => exact ⟨[], rfl, fun _ quotable => quotable⟩
          | some digit =>
              obtain ⟨taken, equal, keeps⟩ := ih (value * 8 + digit) text
              refine ⟨character :: taken, congrArg (character :: ·) equal, ?_⟩
              intro body quotable
              exact (keeps body quotable).of_octal octal

/-- An octal run leaves the quote that closes a name. -/
theorem Quotable.octalRun {body : List Char} (quotable : Quotable body) (count value : Nat)
    (rest : List Char) :
    ∃ remaining, (octalRun count value (body ++ '"' :: rest)).2 = remaining ++ '"' :: rest ∧
      Quotable remaining := by
  induction count generalizing value body with
  | zero => exact ⟨body, rfl, quotable⟩
  | succ count ih =>
      cases quotable with
      | nil => exact ⟨[], rfl, .nil⟩
      | @plain character body noQuote noBackslash inner =>
          rw [List.cons_append, Linemarker.octalRun]
          cases octalDigit? character with
          | none => exact ⟨character :: body, rfl, .plain noQuote noBackslash inner⟩
          | some digit => exact ih inner (value * 8 + digit)
      | escaped character inner => exact ⟨_, rfl, .escaped character inner⟩

/-- A name that is read ends at a quote. -/
theorem exists_quotable_of_readQuoted? {text rest : List Char} {octets : Bytes}
    (read : readQuoted? text = some (octets, rest)) :
    ∃ body, text = body ++ '"' :: rest ∧ Quotable body := by
  fun_induction readQuoted? text generalizing octets with
  | case1 => contradiction
  | case2 tail =>
      cases read
      exact ⟨[], rfl, .nil⟩
  | case3 => contradiction
  | case4 escaped tail digit octal _ ih =>
      rw [Option.map_eq_some_iff] at read
      obtain ⟨⟨others, after⟩, inner, equal⟩ := read
      cases equal
      obtain ⟨body, ending, quotable⟩ := ih inner
      obtain ⟨taken, run, keeps⟩ := exists_octalRun_eq 2 digit tail
      refine ⟨'\\' :: escaped :: (taken ++ body), ?_, .escaped escaped (keeps body quotable)⟩
      rw [run, ending]
      simp
  | case5 escaped tail _ _ ih =>
      rw [Option.map_eq_some_iff] at read
      obtain ⟨⟨others, after⟩, inner, equal⟩ := read
      cases equal
      obtain ⟨body, rfl, quotable⟩ := ih inner
      exact ⟨'\\' :: escaped :: body, rfl, .escaped escaped quotable⟩
  | case6 character tail noQuote noBackslash ih =>
      rw [Option.map_eq_some_iff] at read
      obtain ⟨⟨others, after⟩, inner, equal⟩ := read
      cases equal
      obtain ⟨body, rfl, quotable⟩ := ih inner
      exact ⟨character :: body, rfl, .plain noQuote noBackslash quotable⟩

/-- A name that may stand between quotes is read up to the second one. -/
theorem Quotable.exists_readQuoted? {body : List Char} (quotable : Quotable body)
    (rest : List Char) : ∃ octets, readQuoted? (body ++ '"' :: rest) = some (octets, rest) := by
  generalize whole : body ++ '"' :: rest = text
  -- The induction is on the reader: an octal escape may take more than one character.
  fun_induction readQuoted? text generalizing body with
  | case1 => simp at whole
  | case2 tail =>
      cases quotable with
      | nil =>
          cases whole
          exact ⟨[], rfl⟩
      | plain noQuote => exact absurd (List.cons.inj whole).1 noQuote
      | escaped => cases whole
  | case3 =>
      cases quotable with
      | nil => cases whole
      | plain _ noBackslash => exact absurd (List.cons.inj whole).1 noBackslash
      | escaped => simp at whole
  | case4 escaped tail digit octal _ ih =>
      cases quotable with
      | nil => cases whole
      | plain _ noBackslash => exact absurd (List.cons.inj whole).1 noBackslash
      | escaped character inner =>
          cases whole
          obtain ⟨remaining, ending, quotable⟩ := inner.octalRun 2 digit rest
          obtain ⟨octets, read⟩ := ih quotable ending.symm
          rw [read]
          exact ⟨_, rfl⟩
  | case5 escaped tail _ _ ih =>
      cases quotable with
      | nil => cases whole
      | plain _ noBackslash => exact absurd (List.cons.inj whole).1 noBackslash
      | escaped character inner =>
          cases whole
          obtain ⟨octets, read⟩ := ih inner rfl
          rw [read]
          exact ⟨_, rfl⟩
  | case6 character tail noQuote noBackslash ih =>
      cases quotable with
      | nil => exact absurd (List.cons.inj whole).1.symm noQuote
      | plain _ _ inner =>
          cases whole
          obtain ⟨octets, read⟩ := ih inner rfl
          rw [read]
          exact ⟨_, rfl⟩
      | escaped => exact absurd (List.cons.inj whole).1.symm noBackslash

/-- The quote that closes a name is the first one that is not protected. -/
theorem Quotable.append_quote_inj {body other rest after : List Char}
    (quotable : Quotable body) (otherQuotable : Quotable other)
    (same : body ++ '"' :: rest = other ++ '"' :: after) : body = other ∧ rest = after := by
  induction quotable generalizing other with
  | nil =>
      cases otherQuotable with
      | nil =>
          cases same
          exact ⟨rfl, rfl⟩
      | plain noQuote => exact absurd (List.cons.inj same).1.symm noQuote
      | escaped => cases same
  | plain noQuote noBackslash _ ih =>
      cases otherQuotable with
      | nil => exact absurd (List.cons.inj same).1 noQuote
      | plain _ _ otherInner =>
          obtain ⟨rfl, equal⟩ := List.cons.inj same
          obtain ⟨rfl, restSame⟩ := ih otherInner equal
          exact ⟨rfl, restSame⟩
      | escaped => exact absurd (List.cons.inj same).1 noBackslash
  | escaped character _ ih =>
      cases otherQuotable with
      | nil => cases same
      | plain _ noBackslash => exact absurd (List.cons.inj same).1.symm noBackslash
      | escaped _ otherInner =>
          obtain ⟨rfl, equal⟩ := List.cons.inj (List.cons.inj same).2
          obtain ⟨rfl, restSame⟩ := ih otherInner equal
          exact ⟨rfl, restSame⟩

/-! ## Layouts -/

/-- A line in parts. -/
structure Layout where
  /-- Whether the word `line` stands after the hash. -/
  hasWord : Bool
  /-- What stands before the number. -/
  indent : List Char
  digits : List Char
  /-- What stands between the number and the name. -/
  gap : List Char
  /-- What stands between the quotes. -/
  body : List Char
  /-- What stands after the quotes. -/
  rest : List Char

namespace Layout

/-- The word `line` or nothing. -/
def word (layout : Layout) : List Char :=
  if layout.hasWord then ['l', 'i', 'n', 'e'] else []

/-- The line with the given parts. -/
def text (layout : Layout) : List Char :=
  '#' :: layout.word ++ layout.indent ++ layout.digits ++ layout.gap ++
    '"' :: layout.body ++ '"' :: layout.rest

/-- The parts in front of a name are those of a marker. -/
structure IsFramed (layout : Layout) : Prop where
  indent : IsGap layout.indent
  number : IsDigits layout.digits
  gap : IsGap layout.gap

/-- All parts are those of a marker. -/
structure IsMarker (layout : Layout) : Prop extends IsFramed layout where
  bound : digitsValue layout.digits < UInt32.size
  name : Quotable layout.body
  flags : ∃ numerals, Spaced numerals layout.rest ∧
    ∀ numeral ∈ numerals, ∃ value < UInt8.size, Numeral numeral value

/-- The line from its name on. -/
def quoted (layout : Layout) : List Char :=
  layout.body ++ '"' :: layout.rest

/-- The line after its number. -/
def named (layout : Layout) : List Char :=
  layout.gap ++ '"' :: layout.quoted

/-- The line from its number on. -/
def numbered (layout : Layout) : List Char :=
  layout.digits ++ layout.named

/-- The line after the hash and the word. -/
def indented (layout : Layout) : List Char :=
  layout.indent ++ layout.numbered

theorem text_eq (layout : Layout) : layout.text = '#' :: (layout.word ++ layout.indented) := by
  simp [text, indented, numbered, named, quoted]

/-! ## Reading a layout -/

variable {layout other : Layout}

theorem IsFramed.span_indent (framed : layout.IsFramed) :
    layout.indented.takeWhile isBlank = layout.indent ∧
      trimStart layout.indented = layout.numbered := by
  apply span_append framed.indent
  intro character first
  rw [numbered, List.head?_append_of_ne_nil _ framed.number.nonempty] at first
  exact isBlank_of_isDigit (framed.number.decimal character (List.mem_of_mem_head? first))

theorem IsFramed.span_digits (framed : layout.IsFramed) :
    layout.numbered.takeWhile isDigit = layout.digits ∧
      layout.numbered.dropWhile isDigit = layout.named := by
  apply span_append framed.number.decimal
  intro character first
  rw [named] at first
  cases start : layout.gap with
  | nil =>
      rw [start] at first
      cases first
      decide
  | cons blank others =>
      rw [start] at first
      cases first
      exact isDigit_of_isBlank (framed.gap character (start ▸ List.mem_cons_self))

theorem IsFramed.span_gap (framed : layout.IsFramed) :
    layout.named.takeWhile isBlank = layout.gap ∧
      trimStart layout.named = '"' :: layout.quoted := by
  apply span_append framed.gap
  intro character first
  cases first
  decide

/-- What begins with a blank or a digit does not begin with the word. -/
theorem IsFramed.dropStart?_indented (framed : layout.IsFramed) :
    dropStart? ['l', 'i', 'n', 'e'] layout.indented = none := by
  have noLetter (character : Char) (first : character ∈ layout.indented.head?) :
      'l' ≠ character := by
    rintro rfl
    rw [indented, numbered, List.head?_append, List.head?_append_of_ne_nil _
      framed.number.nonempty, Option.mem_def, Option.or_eq_some_iff] at first
    rcases first with blank | ⟨-, digit⟩
    · exact absurd (framed.indent 'l' (List.mem_of_mem_head? blank)) (by decide)
    · exact absurd (framed.number.decimal 'l' (List.mem_of_mem_head? digit)) (by decide)
  cases start : layout.indented with
  | nil => rfl
  | cons character others =>
      rw [start] at noLetter
      rw [dropStart?, if_neg (noLetter character rfl)]

theorem IsFramed.dropStart?_word (framed : layout.IsFramed) :
    dropStart? ['l', 'i', 'n', 'e'] (layout.word ++ layout.indented) =
      if layout.hasWord then some layout.indented else none := by
  unfold word
  split
  · exact dropStart?_append _ _
  · exact framed.dropStart?_indented

/-- A line is read part by part. -/
theorem IsFramed.parse?_eq_some (framed : layout.IsFramed) {line : UInt32} {octets : Bytes}
    {flags : List UInt8} (number : readUInt32? layout.digits = some line)
    (name : readQuoted? layout.quoted = some (octets, layout.rest))
    (read : (words layout.rest).mapM readUInt8? = some flags) :
    parse? layout.text = some ⟨line, String.ofList (Utf8.decodeLossy octets), flags⟩ := by
  have hash : dropStart? ['#'] layout.text = some (layout.word ++ layout.indented) := by
    simp [text_eq, dropStart?]
  have afterWord : (dropStart? ['l', 'i', 'n', 'e'] (layout.word ++ layout.indented)).getD
      (layout.word ++ layout.indented) = layout.indented := by
    rw [framed.dropStart?_word, word]
    split <;> rfl
  have quote : dropStart? ['"'] ('"' :: layout.quoted) = some layout.quoted := by
    simp [dropStart?]
  rw [parse?, hash]
  simp only [Option.bind_eq_bind, Option.bind_some, afterWord, framed.span_indent,
    framed.span_digits, framed.span_gap, number, quote, name, read]

theorem exists_hasWord (afterHash : List Char) :
    ∃ hasWord : Bool, afterHash = (if hasWord then ['l', 'i', 'n', 'e'] else []) ++
      (dropStart? ['l', 'i', 'n', 'e'] afterHash).getD afterHash := by
  cases dropped : dropStart? ['l', 'i', 'n', 'e'] afterHash with
  | none => exact ⟨false, rfl⟩
  | some rest => exact ⟨true, dropStart?_eq_some_iff.mp dropped⟩

/-- Every line that is read has a layout. -/
theorem exists_of_parse? {line : List Char} {marker : Linemarker}
    (parsed : parse? line = some marker) :
    ∃ layout : Layout, layout.text = line ∧ layout.IsFramed ∧ Quotable layout.body ∧
      readUInt32? layout.digits = some marker.line ∧
      (words layout.rest).mapM readUInt8? = some marker.flags := by
  simp only [parse?, Option.bind_eq_bind, Option.bind_eq_some_iff] at parsed
  obtain ⟨afterHash, hash, number, isNumber, quoted, quote, ⟨name, rest⟩, isName, flags, areFlags,
    equal⟩ := parsed
  cases equal
  obtain ⟨hasWord, wordEq⟩ := exists_hasWord afterHash
  generalize (dropStart? ['l', 'i', 'n', 'e'] afterHash).getD afterHash = indented at *
  obtain ⟨body, closing, quotable⟩ := exists_quotable_of_readQuoted? isName
  rw [dropStart?_eq_some_iff] at hash quote
  let numbered := trimStart indented
  let named := numbered.dropWhile isDigit
  refine ⟨⟨hasWord, indented.takeWhile isBlank, numbered.takeWhile isDigit,
    named.takeWhile isBlank, body, rest⟩, ?_,
    ⟨isGap_takeWhile indented, isDigits_takeWhile isNumber, isGap_takeWhile named⟩, quotable,
    isNumber, areFlags⟩
  have namedEq : named.takeWhile isBlank ++ '"' :: (body ++ '"' :: rest) = named := by
    rw [← closing]
    exact (congrArg _ quote.symm).trans List.takeWhile_append_dropWhile
  have numberedEq : numbered.takeWhile isDigit ++ named = numbered :=
    List.takeWhile_append_dropWhile
  have indentedEq : indented.takeWhile isBlank ++ numbered = indented :=
    List.takeWhile_append_dropWhile
  rw [text_eq, hash, wordEq]
  simp only [Layout.indented, Layout.numbered, Layout.named, Layout.quoted, word, namedEq,
    numberedEq, indentedEq]
  rfl

/-- A line has at most one layout. -/
theorem eq_of_text_eq (framed : layout.IsFramed) (quotable : Quotable layout.body)
    (otherFramed : other.IsFramed) (otherQuotable : Quotable other.body)
    (same : other.text = layout.text) : other = layout := by
  have afterHash : other.word ++ other.indented = layout.word ++ layout.indented := by
    rw [text_eq, text_eq] at same
    exact (List.cons.inj same).2
  have search := congrArg (dropStart? ['l', 'i', 'n', 'e']) afterHash
  rw [framed.dropStart?_word, otherFramed.dropStart?_word] at search
  have hasWord : other.hasWord = layout.hasWord := by
    cases here : other.hasWord <;> cases there : layout.hasWord <;> simp_all
  have indented : other.indented = layout.indented := by
    rw [word, word, hasWord] at afterHash
    exact List.append_cancel_left afterHash
  have indent : other.indent = layout.indent := by
    rw [← otherFramed.span_indent.1, indented, framed.span_indent.1]
  have numbered : other.numbered = layout.numbered := by
    rw [← otherFramed.span_indent.2, indented, framed.span_indent.2]
  have digits : other.digits = layout.digits := by
    rw [← otherFramed.span_digits.1, numbered, framed.span_digits.1]
  have named : other.named = layout.named := by
    rw [← otherFramed.span_digits.2, numbered, framed.span_digits.2]
  have gap : other.gap = layout.gap := by
    rw [← otherFramed.span_gap.1, named, framed.span_gap.1]
  have quoted : '"' :: other.quoted = '"' :: layout.quoted := by
    rw [← otherFramed.span_gap.2, named, framed.span_gap.2]
  obtain ⟨body, rest⟩ := otherQuotable.append_quote_inj quotable (List.cons.inj quoted).2
  cases layout
  cases other
  simp_all

/-- A line with the layout of a marker is read, with the values of its numerals. -/
theorem IsMarker.exists_parse? (isMarker : layout.IsMarker) :
    ∃ marker, parse? layout.text = some marker ∧
      marker.line.toNat = digitsValue layout.digits ∧
      ∀ numerals, Spaced numerals layout.rest →
        List.Forall₂ (fun numeral flag => Numeral numeral flag.toNat) numerals marker.flags := by
  let line := UInt32.ofNat (digitsValue layout.digits)
  have value : line.toNat = digitsValue layout.digits :=
    UInt32.toNat_ofNat_of_lt' isMarker.bound
  have number : readUInt32? layout.digits = some line :=
    isMarker.number.readUInt32?_eq_some_iff.mpr value.symm
  obtain ⟨octets, name⟩ := isMarker.name.exists_readQuoted? layout.rest
  obtain ⟨flags, read⟩ : ∃ flags, (words layout.rest).mapM readUInt8? = some flags := by
    obtain ⟨numerals, spaced, areNumerals⟩ := isMarker.flags
    rw [spaced.words_eq, Sequence.exists_mapM_eq_some_iff]
    intro numeral member
    exact exists_readUInt8?_iff.mpr (areNumerals numeral member)
  refine ⟨_, isMarker.parse?_eq_some number name read, value, ?_⟩
  intro numerals spaced
  rw [spaced.words_eq] at read
  exact (Sequence.mapM_eq_some_iff.mp read).imp fun _ _ => readUInt8?_eq_some_iff.mp

/-- The layout of a line that is read is that of a marker. -/
theorem exists_isMarker_of_parse? {line : List Char} {marker : Linemarker}
    (parsed : parse? line = some marker) :
    ∃ layout : Layout, layout.text = line ∧ layout.IsMarker := by
  obtain ⟨layout, text, framed, quotable, number, flags⟩ := exists_of_parse? parsed
  have value : digitsValue layout.digits = marker.line.toNat :=
    framed.number.readUInt32?_eq_some_iff.mp number
  refine ⟨layout, text, framed, value ▸ marker.line.toNat_lt, quotable, words layout.rest,
    words_eq_iff.mp rfl, ?_⟩
  intro numeral member
  exact exists_readUInt8?_iff.mp
    (Sequence.exists_mapM_eq_some_iff.mp ⟨_, flags⟩ numeral member)

end Layout

/-- The lines that are read as markers are those with the layout of a marker.  A line has
at most one such layout, and the marker has the values of its numerals. -/
theorem parse?_iff_layout (text : List Char) :
    ((parse? text).isSome = true ↔ ∃ layout : Layout, layout.text = text ∧ layout.IsMarker) ∧
      ∀ layout : Layout, layout.text = text → layout.IsMarker →
        (∀ other : Layout, other.text = text → other.IsMarker → other = layout) ∧
        ∃ marker, parse? text = some marker ∧
          marker.line.toNat = digitsValue layout.digits ∧
          ∀ numerals, Spaced numerals layout.rest →
            List.Forall₂ (fun numeral flag => Numeral numeral flag.toNat) numerals
              marker.flags := by
  refine ⟨⟨?_, ?_⟩, ?_⟩
  · intro read
    obtain ⟨marker, parsed⟩ := Option.isSome_iff_exists.mp read
    exact Layout.exists_isMarker_of_parse? parsed
  · rintro ⟨layout, rfl, isMarker⟩
    obtain ⟨marker, parsed, -⟩ := isMarker.exists_parse?
    exact Option.isSome_iff_exists.mpr ⟨marker, parsed⟩
  · rintro layout rfl isMarker
    refine ⟨?_, isMarker.exists_parse?⟩
    intro other same otherMarker
    exact Layout.eq_of_text_eq isMarker.toIsFramed isMarker.name otherMarker.toIsFramed
      otherMarker.name same

/-- The parts of a directive with zeros, a plus sign, and a digit after an escape. -/
def lineDirective : Layout :=
  ⟨true, "\u3000 ".toList, "0071".toList, [], "a\\\"\\0612".toList, "+1\u00A0004 ".toList⟩

theorem isMarker_lineDirective : lineDirective.IsMarker where
  indent := List.all_eq_true.mp (by decide)
  number := ⟨by decide, List.all_eq_true.mp (by decide)⟩
  gap := isGap_nil
  bound := by decide
  name := .plain (by decide) (by decide) (.escaped '"' (.escaped '0' (.plain (by decide)
    (by decide) (.plain (by decide) (by decide) (.plain (by decide) (by decide) .nil)))))
  flags := by
    refine ⟨words lineDirective.rest, words_eq_iff.mp rfl, ?_⟩
    have read : ∀ numeral ∈ words lineDirective.rest, (readUInt8? numeral).isSome = true := by
      decide
    intro numeral member
    exact exists_readUInt8?_iff.mp (Option.isSome_iff_exists.mp (read numeral member))

theorem parse?_lineDirective :
    lineDirective.text = "#line\u3000 0071\"a\\\"\\0612\"+1\u00A0004 ".toList ∧
      lineDirective.IsMarker ∧
      (∀ other : Layout, other.text = lineDirective.text → other.IsMarker →
        other = lineDirective) ∧
      Spaced ["+1".toList, "004".toList] lineDirective.rest ∧
      ∃ marker, parse? lineDirective.text = some marker ∧ marker.line.toNat = 71 ∧
        List.Forall₂ (fun numeral flag => Numeral numeral flag.toNat)
          ["+1".toList, "004".toList] marker.flags := by
  have spaced : Spaced ["+1".toList, "004".toList] lineDirective.rest :=
    words_eq_iff.mp (by decide)
  obtain ⟨unique, marker, parsed, line, flags⟩ :=
    (parse?_iff_layout lineDirective.text).2 lineDirective rfl isMarker_lineDirective
  exact ⟨by decide, isMarker_lineDirective, unique, spaced, marker, parsed, line,
    flags _ spaced⟩

end IncludeGate.Linemarker
