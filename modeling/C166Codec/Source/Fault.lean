import C166Codec.Encoding.Opcode
import C166Codec.Encoding.Fault
/-!
# Assembly errors

Why a line of assembly text could not be turned into bytes: a syntax fault (`SyntaxFault`),
a mnemonic the opcode table does not know, a label that is never defined, operands that no
opcode of the mnemonic accepts, a field that the chosen layout refuses, or a bad constant in
a data directive. A `LineError` adds the number and text of the line that stopped assembly.
-/

namespace C166Codec

/-- A piece of text that is not well formed. -/
inductive SyntaxFault where
  | emptyOperand
  | unknownOperandFormat (operand : String)
  | badIndirect (operand : String)
  | notWordRegister (name : String)
  | unknownCondition (operand : String)
  | bitNumberRange (digits : String)
  | byteRegisterBit (word : String)
  | notBitAddressable (word : String)
  | notBitAddressableAddress (word : String)
  | invalidNumber (text : String)
  | numberTooLarge (text : String)
  /-- A label definition whose name would read as a hexadecimal number. -/
  | hexLabel (label : String)
  | moreThanOneLine
  | notSingleInstruction
  | evenArguments
  | noValues (directive : String)
  | stringOutsideDb
  | byteRange (arg : String)
  | wordRange (arg : String)
  | duplicateLabel (label : String)
  deriving DecidableEq, Repr

/-- What is wrong, in words. -/
def SyntaxFault.detail : SyntaxFault → String
  | .emptyOperand => "empty operand"
  | .unknownOperandFormat s => "unknown operand format " ++ Text.quote s
  | .badIndirect s => "bad indirect operand " ++ Text.quote s
  | .notWordRegister s => Text.quote s ++ " is not a word register"
  | .unknownCondition s => "unknown condition " ++ Text.quote s
  | .bitNumberRange d => "bit number " ++ Text.quote d ++ " out of range"
  | .byteRegisterBit w => "byte register " ++ w ++ " is not bit-addressable"
  | .notBitAddressable w => w ++ " is not bit-addressable"
  | .notBitAddressableAddress w => w ++ " is not a bit-addressable address"
  | .invalidNumber s => "invalid number format " ++ Text.quote s
  | .numberTooLarge s => "number " ++ Text.quote s ++ " too large"
  | .hexLabel l => "label " ++ l ++ " reads as a hex number"
  | .moreThanOneLine => "more than one line"
  | .notSingleInstruction => "not a single instruction"
  | .evenArguments => "even takes no arguments"
  | .noValues d => d ++ " requires at least one value"
  | .stringOutsideDb => "strings are only allowed in db"
  | .byteRange a => a ++ " does not fit a byte"
  | .wordRange a => a ++ " does not fit a word"
  | .duplicateLabel l => "label " ++ l ++ " defined twice"

/-- Why assembly text could not be turned into bytes. -/
inductive SourceError where
  | syntaxFault (fault : SyntaxFault)
  | unknownMnemonic (mnemonic : String)
  | undefinedLabel (label : String)
  /-- No opcode of the mnemonic accepts the operands, written as given. -/
  | noEncoding (mnemonic : String) (operands : List String)
  /-- The chosen opcode's layout refused the bound fields. -/
  | layout (descriptor : Descriptor) (err : LayoutError)
  /-- A data directive's argument could not be read. -/
  | constant (arg : String) (err : SourceError)
  deriving Repr

namespace SourceError

/-- The category of the error. -/
def errorClass : SourceError → ErrorClass
  | .syntaxFault _ => .syntaxError
  | .unknownMnemonic _ => .unknownMnemonic
  | .undefinedLabel _ => .undefinedLabel
  | .noEncoding .. => .noEncoding
  | .layout _ e => e.errorClass
  | .constant _ e => e.errorClass

/-- The text of the error. -/
def message : SourceError → String
  | .syntaxFault f => "syntax error: " ++ f.detail
  | .unknownMnemonic mn => "unknown mnemonic: " ++ mn
  | .undefinedLabel l => "undefined label: " ++ l
  | .noEncoding mn ops => "no suitable encoding found: " ++ mn ++ " " ++ ", ".intercalate ops
  | .layout d e => d.render ++ ": " ++ e.message
  | .constant a e => "invalid constant '" ++ a ++ "': " ++ e.message

end SourceError

/-- The line that stopped assembly: its number from 1, its text and the error. -/
structure LineError where
  line : Nat
  text : String
  err : SourceError
  deriving Repr

/-- The text of a line error: `line 3: "mov r1": no suitable encoding found: mov r1`. -/
def LineError.message (e : LineError) : String :=
  "line " ++ toString e.line ++ ": " ++ Text.quote e.text ++ ": " ++ e.err.message

end C166Codec
