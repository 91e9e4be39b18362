/-!
# UTF-8

Bytes are lists of octets.  `next` reads one character, or the longest beginning
of one that cannot be completed, off the front of a byte string; strict and
lossy decoding are the two ways of going on from there.  A lossy reader puts one
replacement character where such a beginning stands, so that the number of
replacement characters says how many times reading had to start afresh.
-/

namespace IncludeGate

/-- A string of octets. -/
abbrev Bytes := List UInt8

namespace Utf8

/-- The octets of one character. -/
def encodeChar (character : Char) : Bytes :=
  let code := character.toNat
  if code < 0x80 then
    [UInt8.ofNat code]
  else if code < 0x800 then
    [UInt8.ofNat (0xC0 + code / 0x40), UInt8.ofNat (0x80 + code % 0x40)]
  else if code < 0x10000 then
    [UInt8.ofNat (0xE0 + code / 0x1000), UInt8.ofNat (0x80 + code / 0x40 % 0x40),
      UInt8.ofNat (0x80 + code % 0x40)]
  else
    [UInt8.ofNat (0xF0 + code / 0x40000), UInt8.ofNat (0x80 + code / 0x1000 % 0x40),
      UInt8.ofNat (0x80 + code / 0x40 % 0x40), UInt8.ofNat (0x80 + code % 0x40)]

/-- The octets of a text. -/
def encode (text : List Char) : Bytes :=
  text.flatMap encodeChar

/-- The octets of a string. -/
def ofString (text : String) : Bytes :=
  encode text.toList

/-- How many octets follow a leading octet, between which bounds the first of
them lies, and what the leading octet adds to the code point. -/
structure Lead where
  /-- Octets that follow. -/
  following : Nat
  /-- Least first octet that follows. -/
  low : Nat
  /-- Greatest first octet that follows. -/
  high : Nat
  /-- Bits of the code point that the leading octet carries. -/
  bits : Nat
  deriving DecidableEq, Repr

/-- The reading of a leading octet.  The bounds leave out overlong forms,
surrogates and code points past the last one. -/
def lead? (octet : Nat) : Option Lead :=
  if 0xC2 ≤ octet ∧ octet ≤ 0xDF then some ⟨1, 0x80, 0xBF, octet - 0xC0⟩
  else if octet = 0xE0 then some ⟨2, 0xA0, 0xBF, 0⟩
  else if octet = 0xED then some ⟨2, 0x80, 0x9F, 0xD⟩
  else if 0xE1 ≤ octet ∧ octet ≤ 0xEF then some ⟨2, 0x80, 0xBF, octet - 0xE0⟩
  else if octet = 0xF0 then some ⟨3, 0x90, 0xBF, 0⟩
  else if 0xF1 ≤ octet ∧ octet ≤ 0xF3 then some ⟨3, 0x80, 0xBF, octet - 0xF0⟩
  else if octet = 0xF4 then some ⟨3, 0x80, 0x8F, 4⟩
  else none

/-- Read the given number of following octets.  The bounds hold for the first of
them only; where an octet does not fit, reading stops in front of it. -/
def follow : Nat → Nat → Nat → Nat → Bytes → Option Nat × Bytes
  | 0, _, _, bits, rest => (some bits, rest)
  | _ + 1, _, _, _, [] => (none, [])
  | count + 1, low, high, bits, octet :: rest =>
      if low ≤ octet.toNat ∧ octet.toNat ≤ high then
        follow count 0x80 0xBF (bits * 0x40 + (octet.toNat - 0x80)) rest
      else
        (none, octet :: rest)

/-- Read one character, given its first octet.  Without a character the rest
begins after the longest run of octets that some character could have begun
with. -/
def next (first : UInt8) (rest : Bytes) : Option Char × Bytes :=
  if first.toNat < 0x80 then
    (some (Char.ofNat first.toNat), rest)
  else
    match lead? first.toNat with
    | none => (none, rest)
    | some lead =>
        let (code, tail) := follow lead.following lead.low lead.high lead.bits rest
        (code.map Char.ofNat, tail)

theorem follow_length_le (count low high bits : Nat) (rest : Bytes) :
    (follow count low high bits rest).2.length ≤ rest.length := by
  induction count generalizing low high bits rest with
  | zero => simp [follow]
  | succ count ih =>
      cases rest with
      | nil => simp [follow]
      | cons octet rest =>
          unfold follow
          split
          · exact Nat.le_succ_of_le (ih ..)
          · simp

theorem next_length_le (first : UInt8) (rest : Bytes) :
    (next first rest).2.length ≤ rest.length := by
  unfold next
  split
  · simp
  · split
    · simp
    · exact follow_length_le ..

/-- One reading after another: a character, or nothing where none could be
read. -/
def readings : Bytes → List (Option Char)
  | [] => []
  | first :: rest => (next first rest).1 :: readings (next first rest).2
termination_by bytes => bytes.length
decreasing_by
  have := next_length_le first rest
  simp only [List.length_cons]
  omega

/-- The character that stands for octets which are not UTF-8. -/
def replacement : Char := Char.ofNat 0xFFFD

/-- Decode, with a replacement character where no character could be read. -/
def decodeLossy (bytes : Bytes) : List Char :=
  (readings bytes).map (·.getD replacement)

/-- Decode, if the octets are UTF-8 throughout. -/
def decode? (bytes : Bytes) : Option (List Char) :=
  (readings bytes).mapM id

end Utf8

end IncludeGate
