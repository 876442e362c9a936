import C166Codec.Text.Blank
import C166Codec.Text.Case
/-!
# Lexemes of assembly text

The small word classes that operands and statements are built from, as tests on lists of
characters:

* a hexadecimal literal: hex digits and an `h` (either case), as in `0FFh`;
* a decimal literal: a single digit;
* a name: a letter or `_`, then letters, digits and `_`; letters are those of a case-blind
  `[a-z]` (`Text.isFoldLetter`);
* a bank register token: `r` or `R` and one or two digits.

Parts of an operand may be separated by gaps (`Text.isGap`).
-/

namespace C166Codec.Lexeme

open Text

/-- The digits of a hexadecimal literal: one or more hex digits and a final `h` or `H`. -/
def hexDigits? (cs : List Char) : Option (List Char) :=
  match cs.reverse with
  | h :: ds => if sameLetter h 'h' && !ds.isEmpty && ds.all isHexDigit then some ds.reverse else none
  | [] => none

/-- True for a hexadecimal literal. -/
def isHex (cs : List Char) : Bool := (hexDigits? cs).isSome

/-- True for a single decimal digit. -/
def isDecimal : List Char → Bool
  | [c] => isDigit c
  | _ => false

/-- True for a number literal of either form. -/
def isNumber (cs : List Char) : Bool := isDecimal cs || isHex cs

/-- True for a name: a name start and then name parts. -/
def isName : List Char → Bool
  | c :: cs => isNameStart c && cs.all isNamePart
  | [] => false

/-- The value of a hex digit (0 for any other character). -/
def digitValue (c : Char) : Nat :=
  if isDigit c then c.toNat - 48
  else if 'a' ≤ c && c ≤ 'f' then c.toNat - 87
  else if 'A' ≤ c && c ≤ 'F' then c.toNat - 55
  else 0

/-- The value of a string of hex digits. -/
def hexValue (ds : List Char) : Nat := ds.foldl (fun n c => 16 * n + digitValue c) 0

/-- The text after leading gaps. -/
def skipGaps (cs : List Char) : List Char := cs.dropWhile isGap

/-- The text after an expected character. -/
def expect (c : Char) : List Char → Option (List Char)
  | d :: rest => if d = c then some rest else none
  | [] => none

/-- A bank register token (`r` or `R` and one or two digits) and the text after it. -/
def bankToken? : List Char → Option (List Char × List Char)
  | c :: d :: rest =>
    if sameLetter c 'r' && isDigit d then
      match rest with
      | e :: rest' => if isDigit e then some ([c, d, e], rest') else some ([c, d], rest)
      | [] => some ([c, d], [])
    else none
  | _ => none

example : hexDigits? "0FFh".toList = some "0FF".toList ∧ isHex "h".toList = false ∧
    isName "_loop1".toList = true ∧ isName "1a".toList = false := by decide

end C166Codec.Lexeme
