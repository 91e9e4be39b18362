import IncludeGate.Proofs.Text.Utf8
import Mathlib.Algebra.Group.Nat.Defs

/-!
# The order of texts and of their octets

UTF-8 keeps the order of code points.  The first octet of a character says how many octets
there are, more for greater code points, and also carries the most significant digits of the
code point in base 64; the octets after it carry one digit each.  So of two characters the
lesser one has the lesser octet at the first place where they differ, and what follows them
does not count.
-/

namespace IncludeGate.Utf8

/-- The octets after the first one, for the last digits of a code point in base 64. -/
def trailing : Nat → Nat → Bytes
  | 0, _ => []
  | count + 1, code => trailing count (code / 0x40) ++ [UInt8.ofNat (0x80 + code % 0x40)]

/-- The number of octets after the first one. -/
def trailingCount (code : Nat) : Nat :=
  if code < 0x80 then 0 else if code < 0x800 then 1 else if code < 0x10000 then 2 else 3

/-- The first octet. -/
def leading (code : Nat) : Nat :=
  if code < 0x80 then code
  else if code < 0x800 then 0xC0 + code / 0x40
  else if code < 0x10000 then 0xE0 + code / 0x40 ^ 2
  else 0xF0 + code / 0x40 ^ 3

variable {left right : Nat}

theorem encodeChar_eq (character : Char) :
    encodeChar character =
      UInt8.ofNat (leading character.toNat) ::
        trailing (trailingCount character.toNat) character.toNat := by
  unfold encodeChar leading trailingCount
  generalize character.toNat = code
  dsimp only
  split
  · rfl
  split
  · rfl
  split
  · rfl
  · simp [trailing, Nat.div_div_eq_div_mul]

theorem cons_lt_cons_of_lt {first second : Nat} (less : first < second) (isOctet : second < 0x100)
    (front back : Bytes) : UInt8.ofNat first :: front < UInt8.ofNat second :: back := by
  apply List.cons_lt_cons_iff.mpr
  left
  rw [UInt8.lt_iff_toNat_lt, UInt8.toNat_ofNat_of_lt' isOctet,
    UInt8.toNat_ofNat_of_lt' (Nat.lt_trans less isOctet)]
  exact less

/-- Digits are compared from the most significant one on. -/
theorem trailing_lt {count : Nat} (less : left < right)
    (same : left / 0x40 ^ count = right / 0x40 ^ count) (front back : Bytes) :
    trailing count left ++ front < trailing count right ++ back := by
  induction count generalizing left right front back with
  | zero => simp at same; omega
  | succ count ih =>
      rw [trailing, trailing, List.append_assoc, List.append_assoc]
      rcases Nat.lt_or_ge (left / 0x40) (right / 0x40) with above | below
      · apply ih above
        rwa [Nat.div_div_eq_div_mul, Nat.div_div_eq_div_mul, ← Nat.pow_succ']
      · have equal : left / 0x40 = right / 0x40 := by omega
        rw [equal]
        apply List.append_left_lt
        exact cons_lt_cons_of_lt (by omega) (by omega) _ _

/-- The first octet grows with the code point, and where it stays the same there are as many
octets after it and the digits that it carries are the same. -/
theorem leading_cases (less : left < right) (isCode : right < 0x110000) :
    leading left < leading right ∧ leading right < 0x100 ∨
      leading left = leading right ∧ trailingCount left = trailingCount right ∧
        left / 0x40 ^ trailingCount left = right / 0x40 ^ trailingCount left := by
  -- One case for each length of the one and of the other.
  unfold leading trailingCount
  repeat' split
  all_goals
    simp only [Nat.reducePow, true_and]
    omega

theorem encodeChar_lt {left right : Char} (less : left < right) (front back : Bytes) :
    encodeChar left ++ front < encodeChar right ++ back := by
  have isCode : right.toNat < 0x110000 := by
    have := toNat_valid right
    omega
  have codes : left.toNat < right.toNat := less
  rw [encodeChar_eq, encodeChar_eq, List.cons_append, List.cons_append]
  rcases leading_cases codes isCode with ⟨lesser, isOctet⟩ | ⟨first, count, digits⟩
  · exact cons_lt_cons_of_lt lesser isOctet _ _
  · rw [first, ← count]
    exact List.cons_lt_cons_iff.mpr (.inr ⟨rfl, trailing_lt codes digits front back⟩)

theorem encode_lt {left right : List Char} (less : left < right) :
    encode left < encode right := by
  induction less with
  | nil =>
      rw [encode, encode, List.flatMap_cons, encodeChar_eq]
      exact List.nil_lt_cons _ _
  | cons _ ih => exact List.append_left_lt ih
  | rel less => exact encodeChar_lt less _ _

/-- The lesser one of two strings has the lesser octets. -/
theorem ofString_lt {left right : String} (less : left < right) :
    ofString left < ofString right :=
  encode_lt less

end IncludeGate.Utf8
