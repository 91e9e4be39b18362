/-!
# Blank characters

A character is blank when it has the Unicode property `White_Space`.  Everything
in this library that trims, skips or separates by blanks uses this one class, so
that a no-break space, an ideographic space or a next-line character counts
everywhere or nowhere.
-/

namespace IncludeGate.Text

/-- The Unicode property `White_Space`. -/
def isBlank (character : Char) : Bool :=
  let code := character.toNat
  (9 ≤ code && code ≤ 13) || code == 0x20 || code == 0x85 || code == 0xA0 ||
    code == 0x1680 || (0x2000 ≤ code && code ≤ 0x200A) || code == 0x2028 ||
    code == 0x2029 || code == 0x202F || code == 0x205F || code == 0x3000

/-- A text without the blanks it begins with. -/
def trimStart (text : List Char) : List Char :=
  text.dropWhile isBlank

/-- A text without the blanks it ends with. -/
def trimEnd (text : List Char) : List Char :=
  (text.reverse.dropWhile isBlank).reverse

/-- A text without the blanks at its two ends. -/
def trim (text : List Char) : List Char :=
  trimEnd (trimStart text)

@[simp] theorem trimStart_nil : trimStart [] = [] := rfl

@[simp] theorem trimEnd_nil : trimEnd [] = [] := rfl

theorem trimStart_cons_of_blank {character : Char} {rest : List Char}
    (blank : isBlank character = true) :
    trimStart (character :: rest) = trimStart rest := by
  simp [trimStart, blank]

theorem trimStart_cons_of_not_blank {character : Char} {rest : List Char}
    (solid : isBlank character = false) :
    trimStart (character :: rest) = character :: rest := by
  simp [trimStart, solid]

/-- A blank at the end is one of those that go. -/
theorem trimEnd_concat_blank {blank : Char} (isBlank : isBlank blank = true) (text : List Char) :
    trimEnd (text ++ [blank]) = trimEnd text := by
  simp [trimEnd, isBlank]

end IncludeGate.Text
