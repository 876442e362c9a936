/-!
# Blank characters

Two classes of blank characters are used.

* `isWhite` is the Unicode `White_Space` property: tab, line feed, vertical tab, form feed,
  carriage return, space, U+0085, U+00A0, U+1680, U+2000 to U+200A, U+2028, U+2029, U+202F,
  U+205F and U+3000. Names, operands and statements are trimmed of these at both ends.
* `isGap` is the narrow class that may stand between the parts of an operand: tab, line
  feed, form feed, carriage return and space (not the vertical tab).
-/

namespace C166Codec.Text

/-- The Unicode `White_Space` property. -/
def isWhite (c : Char) : Bool :=
  let n := c.toNat
  (0x09 ≤ n && n ≤ 0x0D) || n = 0x20 || n = 0x85 || n = 0xA0 || n = 0x1680 ||
    (0x2000 ≤ n && n ≤ 0x200A) || n = 0x2028 || n = 0x2029 || n = 0x202F || n = 0x205F ||
    n = 0x3000

/-- The blanks that may separate the parts of an operand. -/
def isGap (c : Char) : Bool :=
  c = '\t' || c = '\n' || c = '\x0c' || c = '\r' || c = ' '

/-- Characters with the blanks of `isWhite` removed from both ends. -/
def trimChars (cs : List Char) : List Char :=
  ((cs.dropWhile isWhite).reverse.dropWhile isWhite).reverse

/-- A text with the blanks of `isWhite` removed from both ends. -/
def trim (s : String) : String := String.ofList (trimChars s.toList)

/-- Core's notion of whitespace is contained in `isWhite`. -/
theorem isWhite_of_isWhitespace {c : Char} (h : c.isWhitespace = true) : isWhite c = true := by
  simp only [Char.isWhitespace, Bool.or_eq_true, decide_eq_true_eq] at h
  rcases h with ((h | h) | h) | h <;> simp [isWhite, h]

end C166Codec.Text
