import IncludeGate.Text.Utf8

/-!
# UTF-8 read back

The octets of a character are read as that character whatever follows them, so
decoding gives back every text that was encoded.  A leading octet and the bounds
that it sets for the octet after it are computed from the code point first; the
reading of the whole character is then a sum of the bits that its octets carry.

Conversely, octets that can be decoded are the octets of what they are decoded to:
the bounds leave exactly one way of writing each character.
-/

namespace IncludeGate.Utf8

/-- Code points of characters leave out the surrogates. -/
theorem toNat_valid (character : Char) :
    character.toNat < 0xD800 ∨ 0xDFFF < character.toNat ∧ character.toNat < 0x110000 :=
  character.valid

/-- A following octet within the bounds adds six bits. -/
theorem follow_cons {count low high bits octet : Nat} {rest : Bytes}
    (above : low ≤ octet) (below : octet ≤ high) (isOctet : octet < 0x100) :
    follow (count + 1) low high bits (UInt8.ofNat octet :: rest) =
      follow count 0x80 0xBF (bits * 0x40 + (octet - 0x80)) rest := by
  have value : (UInt8.ofNat octet).toNat = octet := UInt8.toNat_ofNat_of_lt' isOctet
  simp [follow, value, above, below]

/-- Reading a character that takes more than one octet. -/
theorem next_of_lead {first low high following bits : Nat} {rest tail : Bytes}
    {character : Char} (isOctet : first < 0x100) (notAscii : 0x80 ≤ first)
    (leads : lead? first = some ⟨following, low, high, bits⟩)
    (follows : follow following low high bits rest = (some character.toNat, tail)) :
    next (UInt8.ofNat first) rest = (some character, tail) := by
  have value : (UInt8.ofNat first).toNat = first := UInt8.toNat_ofNat_of_lt' isOctet
  simp [next, value, Nat.not_lt.mpr notAscii, leads, follows]

theorem lead?_two (code : Nat) (above : 0x80 ≤ code) (below : code < 0x800) :
    lead? (0xC0 + code / 0x40) = some ⟨1, 0x80, 0xBF, code / 0x40⟩ := by
  rw [lead?, if_pos (by omega)]
  simp

theorem lead?_three (code : Nat) (above : 0x800 ≤ code) (below : code < 0x10000)
    (noSurrogate : code < 0xD800 ∨ 0xDFFF < code) :
    ∃ low high, lead? (0xE0 + code / 0x1000) = some ⟨2, low, high, code / 0x1000⟩ ∧
      low ≤ 0x80 + code / 0x40 % 0x40 ∧ 0x80 + code / 0x40 % 0x40 ≤ high := by
  rw [lead?, if_neg (by omega)]
  by_cases least : 0xE0 + code / 0x1000 = 0xE0
  · refine ⟨0xA0, 0xBF, ?_, by omega, by omega⟩
    rw [if_pos least, Nat.add_eq_left.mp least]
  · rw [if_neg least]
    by_cases surrogates : 0xE0 + code / 0x1000 = 0xED
    · refine ⟨0x80, 0x9F, ?_, by omega, by omega⟩
      rw [if_pos surrogates, show code / 0x1000 = 0xD by omega]
    · refine ⟨0x80, 0xBF, ?_, by omega, by omega⟩
      rw [if_neg surrogates, if_pos (by omega), Nat.add_sub_cancel_left]

theorem lead?_four (code : Nat) (above : 0x10000 ≤ code) (below : code < 0x110000) :
    ∃ low high, lead? (0xF0 + code / 0x40000) = some ⟨3, low, high, code / 0x40000⟩ ∧
      low ≤ 0x80 + code / 0x1000 % 0x40 ∧ 0x80 + code / 0x1000 % 0x40 ≤ high := by
  rw [lead?, if_neg (by omega), if_neg (by omega), if_neg (by omega), if_neg (by omega)]
  by_cases least : 0xF0 + code / 0x40000 = 0xF0
  · refine ⟨0x90, 0xBF, ?_, by omega, by omega⟩
    rw [if_pos least, Nat.add_eq_left.mp least]
  · rw [if_neg least]
    by_cases last : 0xF0 + code / 0x40000 = 0xF4
    · refine ⟨0x80, 0x8F, ?_, by omega, by omega⟩
      rw [if_neg (by omega), if_pos last, show code / 0x40000 = 4 by omega]
    · refine ⟨0x80, 0xBF, ?_, by omega, by omega⟩
      rw [if_pos (by omega), Nat.add_sub_cancel_left]

/-- The octets of a character are read as that character. -/
theorem readings_encodeChar (character : Char) (rest : Bytes) :
    readings (encodeChar character ++ rest) = some character :: readings rest := by
  have valid := toNat_valid character
  unfold encodeChar
  generalize codeEq : character.toNat = code at valid
  dsimp only
  split
  · rename_i ascii
    have isOctet : code < 0x100 := by omega
    have value : (UInt8.ofNat code).toNat = code := UInt8.toNat_ofNat_of_lt' isOctet
    have char : Char.ofNat code = character := by rw [← codeEq, Char.ofNat_toNat]
    rw [List.singleton_append, readings, next, value, if_pos ascii, char]
  split
  · have read : next (UInt8.ofNat (0xC0 + code / 0x40))
        (UInt8.ofNat (0x80 + code % 0x40) :: rest) = (some character, rest) := by
      apply next_of_lead (by omega) (by omega) (lead?_two code (by omega) (by omega))
      have sum : code / 0x40 * 0x40 + (0x80 + code % 0x40 - 0x80) = code := by omega
      rw [follow_cons (by omega) (by omega) (by omega), follow, codeEq, sum]
    rw [List.cons_append, List.singleton_append, readings, read]
  split
  · obtain ⟨low, high, leads, above, below⟩ :=
      lead?_three code (by omega) (by omega) (by omega)
    have read : next (UInt8.ofNat (0xE0 + code / 0x1000))
        (UInt8.ofNat (0x80 + code / 0x40 % 0x40) :: UInt8.ofNat (0x80 + code % 0x40) :: rest) =
          (some character, rest) := by
      apply next_of_lead (by omega) (by omega) leads
      have sum : (code / 0x1000 * 0x40 + (0x80 + code / 0x40 % 0x40 - 0x80)) * 0x40 +
          (0x80 + code % 0x40 - 0x80) = code := by omega
      rw [follow_cons above below (by omega), follow_cons (by omega) (by omega) (by omega),
        follow, codeEq, sum]
    rw [List.cons_append, List.cons_append, List.singleton_append, readings, read]
  · obtain ⟨low, high, leads, above, below⟩ :=
      lead?_four code (by omega) (by omega)
    have read : next (UInt8.ofNat (0xF0 + code / 0x40000))
        (UInt8.ofNat (0x80 + code / 0x1000 % 0x40) :: UInt8.ofNat (0x80 + code / 0x40 % 0x40) ::
          UInt8.ofNat (0x80 + code % 0x40) :: rest) = (some character, rest) := by
      apply next_of_lead (by omega) (by omega) leads
      have sum : ((code / 0x40000 * 0x40 + (0x80 + code / 0x1000 % 0x40 - 0x80)) * 0x40 +
          (0x80 + code / 0x40 % 0x40 - 0x80)) * 0x40 + (0x80 + code % 0x40 - 0x80) = code := by
        omega
      rw [follow_cons above below (by omega), follow_cons (by omega) (by omega) (by omega),
        follow_cons (by omega) (by omega) (by omega), follow, codeEq, sum]
    rw [List.cons_append, List.cons_append, List.cons_append, List.singleton_append, readings,
      read]

theorem readings_encode (text : List Char) : readings (encode text) = text.map some := by
  induction text with
  | nil => simp [encode, readings]
  | cons character rest ih =>
      have front : encode (character :: rest) = encodeChar character ++ encode rest := rfl
      rw [front, readings_encodeChar, ih, List.map_cons]

/-- Decoding the octets of a text gives the text. -/
@[simp] theorem decodeLossy_encode (text : List Char) : decodeLossy (encode text) = text := by
  rw [decodeLossy, readings_encode, List.map_map]
  exact List.map_id text

@[simp] theorem decode?_ofString (text : String) : decode? (ofString text) = some text.toList := by
  rw [decode?, ofString, readings_encode]
  generalize text.toList = characters
  induction characters with
  | nil => rfl
  | cons character rest ih =>
      rw [List.map_cons, List.mapM_cons, ih]
      rfl

/-! ## Octets that are text -/

theorem toNat_ofNat {code : Nat}
    (valid : code < 0xD800 ∨ 0xDFFF < code ∧ code < 0x110000) :
    (Char.ofNat code).toNat = code := by
  rw [Char.ofNat, dif_pos (show code.isValidChar from valid)]
  rfl

theorem ofNat_eq_octet (octet : UInt8) {value : Nat} (equal : value = octet.toNat) :
    UInt8.ofNat value = octet := by
  rw [equal, UInt8.ofNat_toNat]

/-- A following octet that was read lay within the bounds. -/
theorem follow_eq_some {count low high bits code : Nat} {rest tail : Bytes}
    (follows : follow (count + 1) low high bits rest = (some code, tail)) :
    ∃ octet others, rest = octet :: others ∧ low ≤ octet.toNat ∧ octet.toNat ≤ high ∧
      follow count 0x80 0xBF (bits * 0x40 + (octet.toNat - 0x80)) others = (some code, tail) := by
  cases rest with
  | nil => simp [follow] at follows
  | cons octet others =>
      rw [follow] at follows
      split at follows
      · rename_i within
        exact ⟨octet, others, rfl, within.1, within.2, follows⟩
      · simp at follows

theorem encodeChar_of_follow_one {first : UInt8} {bits code : Nat} {rest tail : Bytes}
    (leads : first.toNat = 0xC0 + bits) (overlong : 2 ≤ bits) (small : bits < 0x20)
    (follows : follow 1 0x80 0xBF bits rest = (some code, tail)) :
    first :: rest = encodeChar (Char.ofNat code) ++ tail := by
  obtain ⟨second, others, rfl, above, below, done⟩ := follow_eq_some follows
  rw [follow, Prod.mk.injEq, Option.some.injEq] at done
  obtain ⟨codeEq, rfl⟩ := done
  unfold encodeChar
  rw [toNat_ofNat (by omega)]
  dsimp only
  rw [if_neg (by omega), if_pos (by omega), ofNat_eq_octet first (by omega),
    ofNat_eq_octet second (by omega)]
  rfl

theorem encodeChar_of_follow_two {first : UInt8} {low high bits code : Nat} {rest tail : Bytes}
    (leads : first.toNat = 0xE0 + bits) (small : bits < 0x10) (within : 0x80 ≤ low ∧ high ≤ 0xBF)
    (overlong : bits = 0 → 0xA0 ≤ low) (surrogate : bits = 0xD → high ≤ 0x9F)
    (follows : follow 2 low high bits rest = (some code, tail)) :
    first :: rest = encodeChar (Char.ofNat code) ++ tail := by
  obtain ⟨second, _, rfl, above, below, rest⟩ := follow_eq_some follows
  obtain ⟨third, others, rfl, thirdAbove, thirdBelow, done⟩ := follow_eq_some rest
  rw [follow, Prod.mk.injEq, Option.some.injEq] at done
  obtain ⟨codeEq, rfl⟩ := done
  unfold encodeChar
  rw [toNat_ofNat (by omega)]
  dsimp only
  rw [if_neg (by omega), if_neg (by omega), if_pos (by omega),
    ofNat_eq_octet first (by omega), ofNat_eq_octet second (by omega),
    ofNat_eq_octet third (by omega)]
  rfl

theorem encodeChar_of_follow_three {first : UInt8} {low high bits code : Nat} {rest tail : Bytes}
    (leads : first.toNat = 0xF0 + bits) (small : bits < 5) (within : 0x80 ≤ low ∧ high ≤ 0xBF)
    (overlong : bits = 0 → 0x90 ≤ low) (last : bits = 4 → high ≤ 0x8F)
    (follows : follow 3 low high bits rest = (some code, tail)) :
    first :: rest = encodeChar (Char.ofNat code) ++ tail := by
  obtain ⟨second, _, rfl, above, below, rest⟩ := follow_eq_some follows
  obtain ⟨third, _, rfl, thirdAbove, thirdBelow, rest⟩ := follow_eq_some rest
  obtain ⟨fourth, others, rfl, fourthAbove, fourthBelow, done⟩ := follow_eq_some rest
  rw [follow, Prod.mk.injEq, Option.some.injEq] at done
  obtain ⟨codeEq, rfl⟩ := done
  unfold encodeChar
  rw [toNat_ofNat (by omega)]
  dsimp only
  rw [if_neg (by omega), if_neg (by omega), if_neg (by omega),
    ofNat_eq_octet first (by omega), ofNat_eq_octet second (by omega),
    ofNat_eq_octet third (by omega), ofNat_eq_octet fourth (by omega)]
  rfl

/-- What a leading octet says: two octets for a character, three or four. -/
theorem lead?_cases {octet : Nat} {lead : Lead} (leads : lead? octet = some lead) :
    (lead.following = 1 ∧ (lead.low = 0x80 ∧ lead.high = 0xBF) ∧ octet = 0xC0 + lead.bits ∧
        2 ≤ lead.bits ∧ lead.bits < 0x20) ∨
      (lead.following = 2 ∧ (0x80 ≤ lead.low ∧ lead.high ≤ 0xBF) ∧ octet = 0xE0 + lead.bits ∧
        lead.bits < 0x10 ∧ (lead.bits = 0 → 0xA0 ≤ lead.low) ∧
        (lead.bits = 0xD → lead.high ≤ 0x9F)) ∨
      (lead.following = 3 ∧ (0x80 ≤ lead.low ∧ lead.high ≤ 0xBF) ∧ octet = 0xF0 + lead.bits ∧
        lead.bits < 5 ∧ (lead.bits = 0 → 0x90 ≤ lead.low) ∧
        (lead.bits = 4 → lead.high ≤ 0x8F)) := by
  unfold lead? at leads
  repeat' split at leads
  all_goals cases leads <;> simp <;> omega

/-- An octet below 0x80 is a character. -/
theorem encodeChar_ofNat {octet : UInt8} (ascii : octet.toNat < 0x80) :
    encodeChar (Char.ofNat octet.toNat) = [octet] := by
  rw [encodeChar, toNat_ofNat (by omega)]
  simp [ascii]

/-- The octets of which a character was read are those of that character. -/
theorem eq_encodeChar_of_next {first : UInt8} {character : Char} {rest : Bytes}
    (read : (next first rest).1 = some character) :
    first :: rest = encodeChar character ++ (next first rest).2 := by
  unfold next at read ⊢
  split at read
  · rename_i ascii
    cases read
    rw [if_pos ascii, encodeChar_ofNat ascii, List.singleton_append]
  · rename_i notAscii
    rw [if_neg notAscii]
    cases leads : lead? first.toNat with
    | none => simp [leads] at read
    | some lead =>
        simp only [leads, Option.map_eq_some_iff] at read
        obtain ⟨code, here, rfl⟩ := read
        obtain ⟨following, low, high, bits⟩ := lead
        rcases lead?_cases leads with ⟨rfl, ⟨rfl, rfl⟩, octet, overlong, small⟩ |
          ⟨rfl, within, octet, small, overlong, surrogate⟩ |
          ⟨rfl, within, octet, small, overlong, last⟩
        · exact encodeChar_of_follow_one octet overlong small (Prod.ext here rfl)
        · exact encodeChar_of_follow_two octet small within overlong surrogate (Prod.ext here rfl)
        · exact encodeChar_of_follow_three octet small within overlong last (Prod.ext here rfl)

theorem encode_of_readings {octets : Bytes} {text : List Char}
    (read : readings octets = text.map some) : encode text = octets := by
  induction text generalizing octets with
  | nil =>
      cases octets with
      | nil => rfl
      | cons first rest => simp [readings] at read
  | cons character text ih =>
      cases octets with
      | nil => simp [readings] at read
      | cons first rest =>
          rw [readings, List.map_cons, List.cons.injEq] at read
          rw [eq_encodeChar_of_next read.1, ← ih read.2]
          rfl

theorem eq_map_some_of_mapM_id {read : List (Option Char)} {text : List Char}
    (found : read.mapM id = some text) : read = text.map some := by
  induction read generalizing text with
  | nil =>
      cases found
      rfl
  | cons first read ih =>
      simp only [List.mapM_cons, Option.bind_eq_bind, Option.bind_eq_some_iff] at found
      obtain ⟨character, here, others, rest, equal⟩ := found
      rw [Option.some.inj equal.symm, List.map_cons, ← ih rest]
      exact congrArg (· :: read) here

/-- Octets that are decoded are those of the decoded text. -/
theorem encode_of_decode? {octets : Bytes} {text : List Char}
    (decoded : decode? octets = some text) : encode text = octets :=
  encode_of_readings (eq_map_some_of_mapM_id decoded)

theorem decode?_eq_some_iff {octets : Bytes} {text : List Char} :
    decode? octets = some text ↔ octets = encode text := by
  constructor
  · exact fun decoded => (encode_of_decode? decoded).symm
  · rintro rfl
    simpa [ofString] using decode?_ofString (String.ofList text)

theorem ofString_injective {left right : String} (equal : ofString left = ofString right) :
    left = right := by
  have decoded := decode?_ofString left
  rw [equal, decode?_ofString, Option.some.injEq] at decoded
  exact String.toList_injective decoded.symm

/-! ## Octets of a text -/

/-- An octet below 0x80 stands for a character of its own. -/
theorem toNat_of_mem_encodeChar {octet : UInt8} (ascii : octet.toNat < 0x80) {character : Char}
    (member : octet ∈ encodeChar character) : character.toNat = octet.toNat := by
  have valid := toNat_valid character
  have other {value : Nat} (above : 0x80 ≤ value) (below : value < 0x100) :
      octet ≠ UInt8.ofNat value := by
    rintro rfl
    rw [UInt8.toNat_ofNat_of_lt' below] at ascii
    exact Nat.not_lt.mpr above ascii
  unfold encodeChar at member
  dsimp only at member
  split at member
  · rename_i small
    have isOctet : character.toNat < UInt8.size := Nat.lt_trans small (by decide)
    rw [List.mem_singleton.mp member, UInt8.toNat_ofNat_of_lt' isOctet]
  split at member
  · simp only [List.mem_cons, List.not_mem_nil, or_false] at member
    rcases member with member | member
    all_goals exact absurd member (other (by omega) (by omega))
  split at member
  · simp only [List.mem_cons, List.not_mem_nil, or_false] at member
    rcases member with member | member | member
    all_goals exact absurd member (other (by omega) (by omega))
  · simp only [List.mem_cons, List.not_mem_nil, or_false] at member
    rcases member with member | member | member | member
    all_goals exact absurd member (other (by omega) (by omega))

theorem encode_ne_nil {text : List Char} (filled : text ≠ []) : encode text ≠ [] := by
  intro empty
  have decoded := decodeLossy_encode text
  rw [empty] at decoded
  exact filled (decoded.symm.trans (by simp [decodeLossy, readings]))

theorem encode_append (front back : List Char) :
    encode (front ++ back) = encode front ++ encode back :=
  List.flatMap_append

end IncludeGate.Utf8
