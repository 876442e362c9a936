import C166Codec.Text.Hex
/-!
# Data in a listing

Bytes that are not reachable code are written as `db` lines of at most eight bytes. A byte is
written `12h`, with a leading `0` when its first digit is a letter (`0FFh`), so that the
assembler reads it back as a number.

A run of at least four printable characters (space to `~`, without the single quote) that is
followed by a NUL byte is written as a numbered string, `stringN:` and `db '...', 00h`; the
numbers count up through the whole listing. Shorter or unterminated runs are written as bytes.
-/

namespace C166Codec.Listing

/-- True for the bytes a string line may hold: printable ASCII without `'`. -/
def printable (b : UInt8) : Bool := 0x20 ≤ b && b ≤ 0x7E && b != 0x27

/-- A byte as the assembler reads it: `12h`, or `0FFh` when the first digit is a letter. -/
def hexByte (b : UInt8) : String :=
  let s := Text.upperHex 2 b.toNat ++ "h"
  if b ≥ 0xA0 then "0" ++ s else s

/-- Bytes as `db` lines, eight bytes to a line. -/
def byteLines : List UInt8 → String
  | [] => ""
  | b :: rest =>
    "    db " ++ ", ".intercalate (((b :: rest).take 8).map hexByte) ++ "\n" ++
      byteLines ((b :: rest).drop 8)
termination_by l => l.length
decreasing_by simp only [List.length_drop, List.length_cons]; omega

/-- The line pair of string number `n`. -/
def stringLines (n : Nat) (run : List UInt8) : String :=
  "string" ++ toString n ++ ":\n    db '" ++ String.ofList (run.map fun b => Char.ofNat b.toNat) ++
    "', 00h\n"

/-- The listing of a stretch of data, with strings numbered from `n`; also the next number. -/
def dataLines (data : List UInt8) (n : Nat) : String × Nat :=
  let junk := data.takeWhile (!printable ·)
  match h : data.dropWhile (!printable ·) with
  | [] => (byteLines junk, n)
  | b :: tail =>
    let run := b :: tail.takeWhile printable
    have shorter : (tail.dropWhile printable).length < data.length := by
      have h1 := (List.dropWhile_suffix (l := data) (!printable ·)).length_le
      have h2 := (List.dropWhile_suffix (l := tail) printable).length_le
      rw [h] at h1
      simp only [List.length_cons] at h1
      omega
    match ha : tail.dropWhile printable with
    | 0 :: rest =>
      have whole : (0 :: rest).length < data.length := by
        rw [ha] at shorter
        exact shorter
      have : rest.length < data.length := by
        simp only [List.length_cons] at whole
        omega
      if 4 ≤ run.length then
        let (text, m) := dataLines rest (n + 1)
        (byteLines junk ++ stringLines n run ++ text, m)
      else
        let (text, m) := dataLines (0 :: rest) n
        (byteLines junk ++ byteLines run ++ text, m)
    | after =>
      have : after.length < data.length := by
        rw [ha] at shorter
        exact shorter
      let (text, m) := dataLines after n
      (byteLines junk ++ byteLines run ++ text, m)
termination_by data.length
decreasing_by all_goals omega

end C166Codec.Listing
