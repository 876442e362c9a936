import C166Codec.Text.Printable
import C166Codec.Text.Hex
/-!
# Quoted text

Messages show offending text in double quotes. Inside the quotes a double quote and a
backslash are escaped by a backslash, printable characters stand as they are, the seven
control characters with a letter escape are written `\a \b \f \n \r \t \v`, other control
characters and DEL are written `\xHH`, and every other character is written `\uHHHH` or
`\UHHHHHHHH` (lower-case digits).
-/

namespace C166Codec.Text

/-- Lower-case hex digits of `n`, padded to exactly `width` places. -/
def paddedLowerHex (width n : Nat) : List Char :=
  let ds := hexDigits false n
  List.replicate (width - ds.length) '0' ++ ds

/-- The written form of one character inside quotes. -/
def escapeChar (c : Char) : List Char :=
  if c = '"' || c = '\\' then ['\\', c]
  else if isPrintable c then [c]
  else
    match c.toNat with
    | 0x07 => ['\\', 'a']
    | 0x08 => ['\\', 'b']
    | 0x0C => ['\\', 'f']
    | 0x0A => ['\\', 'n']
    | 0x0D => ['\\', 'r']
    | 0x09 => ['\\', 't']
    | 0x0B => ['\\', 'v']
    | n =>
      if n < 0x20 || n = 0x7F then '\\' :: 'x' :: paddedLowerHex 2 n
      else if n < 0x10000 then '\\' :: 'u' :: paddedLowerHex 4 n
      else '\\' :: 'U' :: paddedLowerHex 8 n

/-- A text in double quotes, with the escapes of `escapeChar`. -/
def quote (s : String) : String :=
  String.ofList ('"' :: s.toList.flatMap escapeChar ++ ['"'])

example : quote "a\"b\\c\n\x00" = "\"a\\\"b\\\\c\\n\\x00\"" := by decide

end C166Codec.Text
