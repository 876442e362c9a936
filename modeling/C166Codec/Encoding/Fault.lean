import C166Codec.Encoding.Layout
/-!
# Codec errors

Why a layout refuses bytes or fields. Decoding fails when the bytes are too few for the
layout or when a byte holds a reserved pattern (`Malformation`); encoding fails when a field
is missing or does not fit its bits.

Every error of the library falls into one `ErrorClass`, the category a caller can tell apart:
truncated input, an unknown opcode, an invalid pattern, a field out of range, and the four
kinds of assembly failure. A few requests can only come from outside the library's own use of
itself (a layout number that names no layout, an unknown mode tag); they are of class `fault`.
-/

namespace C166Codec

/-- The categories of failure. -/
inductive ErrorClass where
  | noEncoding
  | syntaxError
  | unknownMnemonic
  | undefinedLabel
  | unknownInstruction
  | invalidInstruction
  | truncated
  | fieldRange
  /-- A request that no use of the library can make: a broken invariant. -/
  | fault
  deriving DecidableEq, Repr

/-- The reserved pattern that makes bytes no valid instruction. -/
inductive Malformation where
  | lowNibbleSet
  | nibblesDiffer
  | unexpectedSecondByte
  | trapBitSet
  | complementBroken
  | reservedSubOpcode
  | bitByteLowNibbleSet
  | highNibbleNotF
  | highNibbleNotZero
  | conditionLowNibbleSet
  | pageTooWide
  | segmentHighByteSet
  deriving DecidableEq, Repr

/-- The reason in words. -/
def Malformation.reason : Malformation → String
  | .lowNibbleSet => "low nibble must be 0"
  | .nibblesDiffer => "register nibbles differ"
  | .unexpectedSecondByte => "unexpected second byte"
  | .trapBitSet => "trap number bit 0 must be 0"
  | .complementBroken => "protected instruction pattern broken"
  | .reservedSubOpcode => "reserved sub-opcode"
  | .bitByteLowNibbleSet => "low nibble of bit byte must be 0"
  | .highNibbleNotF => "high nibble must be F"
  | .highNibbleNotZero => "high nibble must be 0"
  | .conditionLowNibbleSet => "low nibble of condition byte must be 0"
  | .pageTooWide => "page number exceeds 10 bits"
  | .segmentHighByteSet => "segment high byte must be 0"

/-- Why a layout refuses to decode bytes or to encode fields. -/
inductive LayoutError where
  /-- Fewer bytes than the layout's length. -/
  | truncated (layout : Layout) (available : Nat)
  /-- The instruction's bytes hold a reserved pattern. -/
  | malformed (bytes : List UInt8) (why : Malformation)
  | missing (field : Field)
  /-- A value above the field's maximum, or a negative signed value. -/
  | exceeds (field : Field) (value : Value) (max : UInt32)
  /-- A displacement outside -128..127. -/
  | displacement (r : Int32)
  /-- A mnemonic that the sub-opcode table does not hold. -/
  | subOpcode (mnemonic : String)
  /-- An ext range outside 1..4. -/
  | irange
  /-- An embedded field whose value is not the opcode's high nibble. -/
  | notEncodedBy (field : Field) (value : UInt32) (opcode : UInt8)
  /-- A mode tag other than `#data3`, `reg` and `reg_inc`. -/
  | unknownMode (mode : String)
  deriving DecidableEq, Repr

namespace LayoutError

/-- The category of the error. -/
def errorClass : LayoutError → ErrorClass
  | .truncated .. => .truncated
  | .malformed .. => .invalidInstruction
  | .unknownMode _ => .fault
  | _ => .fieldRange

/-- The text of the error. -/
def message : LayoutError → String
  | .truncated l n =>
    "truncated instruction: " ++ l.name ++ " needs " ++ toString l.length ++ " bytes, have " ++
      toString n
  | .malformed b why => "instruction was invalid: " ++ Text.spacedHex b ++ ": " ++ why.reason
  | .missing f => "field value out of range: " ++ f.name ++ " missing"
  | .exceeds f v m =>
    "field value out of range: " ++ f.name ++ "=" ++ v.render ++ " exceeds " ++
      Text.prefixedHex m.toNat
  | .displacement r => "field value out of range: relative displacement " ++ toString r.toInt
  | .subOpcode mn => "field value out of range: sub-opcode " ++ Text.quote mn
  | .irange => "field value out of range: irange0 must be 1-4"
  | .notEncodedBy f v op =>
    "field value out of range: " ++ f.name ++ " " ++ toString v.toNat ++
      " is not encoded by opcode " ++ Text.upperHex 2 op.toNat ++ "h"
  | .unknownMode s => "isa: unknown data3-or-register mode " ++ Text.quote s

end LayoutError

/-- The text for a layout number that names no layout. -/
def Layout.noCodecMessage (n : Nat) : String := "isa: layout " ++ toString n ++ " has no codec"

end C166Codec
