import C166Codec.Instruction.Basic
import C166Codec.Encoding.Codec
/-!
# Decoding one instruction

`Instruction.decode code pc` reads the instruction at the front of `code`, which stands at
address `pc`. It fails on an empty buffer, on an unused opcode byte, and when the opcode's
layout refuses the bytes; the last error names the opcode's mnemonic and the address.
-/

namespace C166Codec

/-- Why no instruction could be read. -/
inductive DecodeError where
  | empty (pc : UInt32)
  | unknownOpcode (opcode : UInt8) (pc : UInt32)
  | layout (mnemonic : String) (pc : UInt32) (err : LayoutError)
  deriving DecidableEq, Repr

namespace DecodeError

/-- The category of the error. -/
def errorClass : DecodeError → ErrorClass
  | .empty _ => .truncated
  | .unknownOpcode .. => .unknownInstruction
  | .layout _ _ e => e.errorClass

/-- An address as six hex digits and `h`. -/
def at6 (pc : UInt32) : String := Text.upperHex 6 pc.toNat ++ "h"

/-- The text of the error. -/
def message : DecodeError → String
  | .empty pc => "truncated instruction: empty buffer at " ++ at6 pc
  | .unknownOpcode op pc =>
    "unknown instruction: opcode " ++ Text.upperHex 2 op.toNat ++ "h at " ++ at6 pc
  | .layout mn pc e => mn ++ " at " ++ at6 pc ++ ": " ++ e.message

end DecodeError

/-- The instruction at the front of `code`, standing at address `pc`. -/
def Instruction.decode (code : List UInt8) (pc : UInt32) : Except DecodeError Instruction :=
  match code with
  | [] => .error (.empty pc)
  | op :: _ =>
    match Descriptor.lookup? op with
    | none => .error (.unknownOpcode op pc)
    | some d =>
      match d.layout.decode code with
      | .error e => .error (.layout d.mnemonic pc e)
      | .ok fs => .ok ⟨pc, d, code.take d.length, fs⟩

end C166Codec
