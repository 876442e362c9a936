/-!
# Hexadecimal text

Numbers in listings and messages are written in hexadecimal: upper case with a fixed least
width (`upperHex 4 0x1F` is `001F`), lower case behind `0x` (`prefixedHex 255` is `0xff`), and
byte strings either as packed digit pairs or as pairs separated by spaces.
-/

namespace C166Codec.Text

/-- The hexadecimal digits of `n`, most significant first, `0` for zero. -/
def hexDigits (upperCase : Bool) (n : Nat) : List Char :=
  (Nat.toDigits 16 n).map fun c => if upperCase then c.toUpper else c

/-- Upper-case hexadecimal, padded with zeros to at least `width` digits. -/
def upperHex (width n : Nat) : String :=
  let ds := hexDigits true n
  String.ofList (List.replicate (width - ds.length) '0' ++ ds)

/-- Lower-case hexadecimal behind `0x`. -/
def prefixedHex (n : Nat) : String := "0x" ++ String.ofList (hexDigits false n)

/-- Bytes as upper-case digit pairs with nothing between them. -/
def packedHex (bytes : List UInt8) : String :=
  String.join (bytes.map fun b => upperHex 2 b.toNat)

/-- Bytes as upper-case digit pairs separated by single spaces. -/
def spacedHex (bytes : List UInt8) : String :=
  " ".intercalate (bytes.map fun b => upperHex 2 b.toNat)

/-- Bytes as 16-bit words in memory order, each as its two upper-case digit pairs, separated
by single spaces; an odd last byte stands alone. -/
def wordHex : List UInt8 → String
  | [] => ""
  | [b] => upperHex 2 b.toNat
  | [a, b] => upperHex 2 a.toNat ++ upperHex 2 b.toNat
  | a :: b :: rest => upperHex 2 a.toNat ++ upperHex 2 b.toNat ++ " " ++ wordHex rest

/-- The value of a hexadecimal digit in either case. -/
def hexDigitValue? (c : Char) : Option Nat :=
  if '0' ≤ c ∧ c ≤ '9' then some (c.toNat - 48)
  else if 'a' ≤ c ∧ c ≤ 'f' then some (c.toNat - 87)
  else if 'A' ≤ c ∧ c ≤ 'F' then some (c.toNat - 55)
  else none

/-- Bytes written as digit pairs. -/
def hexPairs? : List Char → Option (List UInt8)
  | [] => some []
  | a :: b :: rest => do
    let x ← hexDigitValue? a
    let y ← hexDigitValue? b
    let tail ← hexPairs? rest
    pure ((16 * x + y).toUInt8 :: tail)
  | [_] => none

/-- Bytes written as hexadecimal digit pairs in either case; blanks between them are ignored. -/
def parseHexBytes? (s : String) : Option (List UInt8) :=
  hexPairs? (s.toList.filter fun c => !c.isWhitespace)

/-- An address written in hexadecimal, with an optional `0x` before or `h` after it, that fits
32 bits. -/
def parseAddress? (s : String) : Option UInt32 :=
  let cs := (s.toList.map fun c => if 'A' ≤ c ∧ c ≤ 'Z' then Char.ofNat (c.toNat + 32) else c)
  let cs := match cs with
    | '0' :: 'x' :: rest => rest
    | _ => cs
  let cs := if cs.getLast? = some 'h' then cs.dropLast else cs
  if cs.isEmpty then none
  else do
    let ds ← cs.mapM hexDigitValue?
    let v := ds.foldl (fun n d => 16 * n + d) 0
    if v < 0x100000000 then some v.toUInt32 else none

example : upperHex 4 0x1F = "001F" ∧ prefixedHex 255 = "0xff" ∧ prefixedHex 0 = "0x0" := by
  decide

example : spacedHex [0xE6, 0xF1] = "E6 F1" ∧ packedHex [0xE6, 0x01] = "E601" := by decide

end C166Codec.Text
