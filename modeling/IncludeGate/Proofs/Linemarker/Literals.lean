import IncludeGate.Proofs.Linemarker.Writing

/-!
# File names as string literals

Some preprocessors print the name of a file as a string literal of C, octet by octet: a
backslash stands before quotes and backslashes, a line feed and a tab have the letter escapes
of C, and every other octet that cannot be printed is an octal escape.

The reader knows octal escapes but no letter escapes: of an escaped letter it takes the letter.
So a printed name comes back with the letters `n` and `t` in place of its line feeds and tabs,
and all other octets as they are.  The escapes of one octet are read first; the octets of a
name are then those of another text, in which only these two characters are replaced.
-/

namespace IncludeGate.Linemarker

open Text

/-- An octet of a name as a string literal of C has it. -/
def literalOctet (octet : UInt8) : List Char :=
  if octet = 0x22 ∨ octet = 0x5C then ['\\', Char.ofNat octet.toNat]
  else if octet = 0x0A then ['\\', 'n']
  else if octet = 0x09 then ['\\', 't']
  else if 0x20 ≤ octet.toNat ∧ octet.toNat < 0x7F then [Char.ofNat octet.toNat]
  else octalEscape octet

/-- The octets of a name as a string literal of C, without the quotes around it. -/
def literal (octets : Bytes) : List Char :=
  octets.flatMap literalOctet

/-- What an octet of a printed name is read as. -/
def readBackOctet (octet : UInt8) : UInt8 :=
  if octet = 0x0A then 0x6E else if octet = 0x09 then 0x74 else octet

/-- What a character of a printed name is read as. -/
def readBackChar (character : Char) : Char :=
  if character = '\n' then 'n' else if character = '\t' then 't' else character

/-! ## One octet -/

theorem readQuoted?_literalOctet (octet : UInt8) (rest : List Char) :
    readQuoted? (literalOctet octet ++ rest) = (readQuoted? rest).map fun (octets, after) =>
      (readBackOctet octet :: octets, after) := by
  unfold literalOctet
  split
  · rename_i protect
    rcases protect with rfl | rfl
    · exact readQuoted?_escaped (by decide) rest
    · exact readQuoted?_escaped (by decide) rest
  rename_i noProtect
  split
  · rename_i newline
    subst newline
    exact readQuoted?_escaped (by decide) rest
  rename_i noNewline
  split
  · rename_i tab
    subst tab
    exact readQuoted?_escaped (by decide) rest
  rename_i noTab
  have same : readBackOctet octet = octet := by
    rw [readBackOctet, if_neg noNewline, if_neg noTab]
  rw [same]
  split
  · rename_i printable
    have code : (Char.ofNat octet.toNat).toNat = octet.toNat := Utf8.toNat_ofNat (by omega)
    have noQuote : Char.ofNat octet.toNat ≠ '"' := by
      intro quote
      apply noProtect
      rw [quote] at code
      exact .inl (UInt8.toNat_inj.mp code.symm)
    have noBackslash : Char.ofNat octet.toNat ≠ '\\' := by
      intro backslash
      apply noProtect
      rw [backslash] at code
      exact .inr (UInt8.toNat_inj.mp code.symm)
    rw [List.singleton_append, readQuoted?_plain noQuote noBackslash,
      Utf8.encodeChar_ofNat (by omega)]
    rfl
  · exact readQuoted?_octalEscape octet rest

/-! ## Names -/

/-- The octets of a printed name are read one by one, up to the quote after it. -/
theorem readQuoted?_literal (octets : Bytes) (rest : List Char) :
    readQuoted? (literal octets ++ '"' :: rest) = some (octets.map readBackOctet, rest) := by
  induction octets with
  | nil => exact readQuoted?_quote rest
  | cons octet octets ih =>
      rw [literal, List.flatMap_cons, List.append_assoc, readQuoted?_literalOctet, ← literal, ih]
      rfl

/-- A line feed or a tab is an octet of its own, and no part of another character. -/
theorem map_readBackOctet_encodeChar (character : Char) :
    (Utf8.encodeChar character).map readBackOctet =
      Utf8.encodeChar (readBackChar character) := by
  unfold readBackChar
  split
  · rename_i newline
    subst newline
    decide
  rename_i noNewline
  split
  · rename_i tab
    subst tab
    decide
  rename_i noTab
  have same : ∀ octet ∈ Utf8.encodeChar character, readBackOctet octet = octet := by
    intro octet member
    have stands (ascii : octet.toNat < 0x80) : character.toNat = octet.toNat :=
      Utf8.toNat_of_mem_encodeChar ascii member
    rw [readBackOctet, if_neg, if_neg]
    · rintro rfl
      exact noTab (Char.toNat_inj.mp (stands (by decide)))
    · rintro rfl
      exact noNewline (Char.toNat_inj.mp (stands (by decide)))
  exact (List.map_congr_left same).trans (List.map_id _)

theorem map_readBackOctet_encode (name : List Char) :
    (Utf8.encode name).map readBackOctet = Utf8.encode (name.map readBackChar) := by
  induction name with
  | nil => rfl
  | cons character name ih =>
      rw [Utf8.encode, List.flatMap_cons, List.map_append, map_readBackOctet_encodeChar,
        ← Utf8.encode, ih]
      rfl

theorem readBackChar_eq_self_iff {character : Char} :
    readBackChar character = character ↔ character ≠ '\n' ∧ character ≠ '\t' := by
  unfold readBackChar
  split
  · rename_i newline
    subst newline
    decide
  split
  · rename_i tab
    subst tab
    decide
  · rename_i noNewline noTab
    exact ⟨fun _ => ⟨noNewline, noTab⟩, fun _ => rfl⟩

/-- A name comes back unchanged only if it has nothing that is printed as a letter. -/
theorem map_readBackChar_eq_self_iff {name : List Char} :
    name.map readBackChar = name ↔ '\n' ∉ name ∧ '\t' ∉ name := by
  induction name with
  | nil => simp
  | cons character name ih =>
      rw [List.map_cons, List.cons.injEq, readBackChar_eq_self_iff, ih]
      simp only [List.mem_cons, not_or]
      tauto

/-! ## Markers -/

theorem parse?_write_literal (line : UInt32) (octets : Bytes) (flags : List UInt8) :
    parse? (write line (literal octets) flags) =
      some ⟨line, String.ofList (Utf8.decodeLossy (octets.map readBackOctet)), flags⟩ :=
  parse?_of_quoted line (readQuoted?_literal octets _) (spaced_flagWords flags)

theorem parse?_write_literal_ofString (line : UInt32) (name : String) (flags : List UInt8) :
    parse? (write line (literal (Utf8.ofString name)) flags) =
      some ⟨line, String.ofList (name.toList.map readBackChar), flags⟩ := by
  rw [parse?_write_literal, Utf8.ofString, map_readBackOctet_encode, Utf8.decodeLossy_encode]

/-- A marker whose name is printed as a string literal of C is read with that name, except that
line feeds become the letter `n` and tabs the letter `t`.  So names without these two characters
are read as they are, and no other ones.  Octets that are no text are read like all others, and
what cannot be decoded is replaced. -/
theorem parse?_literal_eq_iff (line : UInt32) (flags : List UInt8) :
    (∀ octets : Bytes, parse? (write line (literal octets) flags) =
      some ⟨line, String.ofList (Utf8.decodeLossy (octets.map readBackOctet)), flags⟩) ∧
    ∀ name : String,
      parse? (write line (literal (Utf8.ofString name)) flags) =
        some ⟨line, String.ofList (name.toList.map readBackChar), flags⟩ ∧
      (parse? (write line (literal (Utf8.ofString name)) flags) = some ⟨line, name, flags⟩ ↔
        '\n' ∉ name.toList ∧ '\t' ∉ name.toList) := by
  refine ⟨fun octets => parse?_write_literal line octets flags, ?_⟩
  intro name
  have read := parse?_write_literal_ofString line name flags
  refine ⟨read, ?_⟩
  rw [read, Option.some.injEq, Linemarker.mk.injEq, ← map_readBackChar_eq_self_iff]
  constructor
  · rintro ⟨-, same, -⟩
    have letters := congrArg String.toList same
    rwa [String.toList_ofList] at letters
  · intro same
    exact ⟨rfl, by rw [same, String.ofList_toList], rfl⟩

/-- The name of a file with a tab in it loses the tab. -/
theorem parse?_literal_ne :
    write 1 (literal (Utf8.ofString "gen\tx.h")) [1] = "# 1 \"gen\\tx.h\" 1".toList ∧
      parse? "# 1 \"gen\\tx.h\" 1".toList = some ⟨1, "gentx.h", [1]⟩ ∧
      ¬ ∀ line name flags, parse? (write line (literal (Utf8.ofString name)) flags) =
        some ⟨line, name, flags⟩ := by
  have printed :
      write 1 (literal (Utf8.ofString "gen\tx.h")) [1] = "# 1 \"gen\\tx.h\" 1".toList := by
    decide
  have read : parse? (write 1 (literal (Utf8.ofString "gen\tx.h")) [1]) =
      some ⟨1, "gentx.h", [1]⟩ :=
    parse?_write_literal_ofString 1 "gen\tx.h" [1]
  refine ⟨printed, printed ▸ read, ?_⟩
  intro exactly
  rw [exactly] at read
  exact absurd read (by decide)

end IncludeGate.Linemarker
