import C166Codec.Instruction.Basic
import C166Codec.Machine.Register
import C166Codec.Machine.ShortAddress
/-!
# Assembly text of an instruction

An instruction is written as its mnemonic and its operands joined by `, `. Registers are
named, numbers are upper-case hexadecimal with an `h` suffix (`#1234h`, `0FE00h` is written
`FE00h`), displacements carry their sign (`+05h`, `-02h`).

A short register address names a bank register from F0h up, else the special function
register at the word it stands for, else that word's address. A bit short address names the
word of its bit in the same way.
-/

namespace C166Codec

namespace Render

/-- Upper-case hexadecimal of an integer with at least two digits, a minus sign before a
negative one. -/
def signedHex (i : Int) : String :=
  if i < 0 then "-" ++ Text.upperHex 2 i.natAbs else Text.upperHex 2 i.toNat

/-- A word displacement as `+XXh` or `-XXh`. The negation is on 32-bit words, so the least
displacement reads `--80000000h`. -/
def relative (r : Int32) : String :=
  if r < 0 then "-" ++ signedHex (-r).toInt ++ "h" else "+" ++ signedHex r.toInt ++ "h"

/-- A word address as `XXXXh`. -/
def address (n : Nat) : String := Text.upperHex 4 n ++ "h"

/-- The name of a short register address, for an access of width `w`. -/
def regName (s : UInt8) (w : Width) (extended : Bool) : String :=
  if s ≥ 0xF0 then
    if w = .byte then Register.byteName (s.toNat % 16) else Register.wordName (s.toNat % 16)
  else
    let addr := (ShortAddress.regAddress? s extended).getD 0
    match SpecialRegister.atAddress? addr with
    | some r => r.name
    | none => address addr.toNat

/-- The name of the word that holds a bit short address. -/
def bitName (s : UInt8) (extended : Bool) : String :=
  let addr := (ShortAddress.bitAddress? s extended).getD 0
  match ShortAddress.bitSpace s with
  | .general => Register.wordName (s.toNat % 16)
  | .ram => address addr.toNat
  | .sfr =>
    match SpecialRegister.atAddress? addr with
    | some r => r.name
    | none => address addr.toNat

/-- An immediate of two hex digits. -/
def imm2 (n : Nat) : String := "#" ++ Text.upperHex 2 n ++ "h"

/-- An immediate of four hex digits. -/
def imm4 (n : Nat) : String := "#" ++ Text.upperHex 4 n ++ "h"

/-- The data-or-register operand by its mode tag; the index is always a word register. A
tag other than the three a decoder writes falls through to the `#data3` text here, where the
original formatter stops on an unknown mode; decoded fields never reach that branch, since
their tag is one of the three (`Render.Readable`, `Instruction.readable_of_decode`). -/
def data3OrInd (fs : Fields) : String :=
  let mode := fs.text .mode0
  if mode = Mode.reg then "[" ++ Register.wordName (fs.uint .register1).toNat ++ "]"
  else if mode = Mode.regInc then "[" ++ Register.wordName (fs.uint .register1).toNat ++ "+]"
  else imm2 (fs.uint .data0).toNat

/-- The text of one operand. -/
def operand (s : Slot) (fs : Fields) (extended : Bool) : String :=
  let v := (fs.uint s.field).toNat
  let aux := ((s.aux.map fs.uint).getD 0).toNat
  match s.kind with
  | .rw => Register.wordName v
  | .rb => Register.byteName v
  | .regW => regName v.toUInt8 .word extended
  | .regB => regName v.toUInt8 .byte extended
  | .mem | .caddr => address v
  | .seg => Text.upperHex 2 v ++ "h"
  | .ind => "[" ++ Register.wordName v ++ "]"
  | .postInc => "[" ++ Register.wordName v ++ "+]"
  | .preDec => "[-" ++ Register.wordName v ++ "]"
  | .indOff => "[" ++ Register.wordName v ++ " + #" ++ Text.upperHex 4 aux ++ "h]"
  | .data3OrInd => data3OrInd fs
  | .data4 | .data8 | .mask8 | .trap => imm2 v
  | .data16 => imm4 v
  | .bitAddr => bitName v.toUInt8 extended ++ "." ++ toString aux
  | .bitoff => bitName v.toUInt8 extended
  | .cond => (Condition.ofNat v).name
  | .rel => relative (fs.int s.field)
  | .pageSeg =>
    if fs.has .page0 then imm4 (fs.uint .page0).toNat else imm2 (fs.uint .segment0).toNat
  | .irange => "#" ++ toString v

/-- A mnemonic and its operands, `mov r1, #0004h`. -/
def line (mn : String) (ops : List String) : String :=
  match ops with
  | [] => mn
  | _ => mn ++ " " ++ ", ".intercalate ops

example : relative 5 = "+05h" ∧ relative (-2) = "-02h" ∧ relative (-2147483648) = "--80000000h" := by
  decide

end Render

/-- The operand texts of an instruction, with short addresses in the ext window when
`extended`. -/
def Instruction.operandTexts (i : Instruction) (extended : Bool) : List String :=
  i.descriptor.shape.slots.map fun s => Render.operand s i.fields extended

/-- The assembly text of an instruction. -/
def Instruction.text (i : Instruction) (extended : Bool) : String :=
  Render.line i.mnemonic (i.operandTexts extended)

end C166Codec
