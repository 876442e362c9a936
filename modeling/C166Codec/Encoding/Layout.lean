import C166Codec.Encoding.Field
/-!
# Byte layouts

A layout says how an opcode's operands are packed into the bytes after the opcode byte. Its
name is the byte diagram of the instruction set manual: `nm` puts two registers in the
nibbles of the second byte, `RR MM MM` a short register address and a little-endian word, and
so on. Every instruction is two or four bytes long.

Two layouts keep a field in the high nibble of the opcode byte itself (`cD rr` the condition,
`qE QQ` the bit number). Three select a mnemonic with a 2-bit sub-opcode from a table of four
(`SubTable`), where an empty entry is reserved.
-/

namespace C166Codec

/-- The four mnemonics that a 2-bit sub-opcode selects; `none` is reserved. -/
inductive SubTable where
  /-- `atomic` and `extr`. -/
  | atomic
  /-- `exts`, `extp`, `extsr` and `extpr`. -/
  | ext
  deriving DecidableEq, Repr

namespace SubTable

/-- The mnemonic of sub-opcode `i`. -/
def entry : SubTable → Fin 4 → Option String
  | .atomic, 0 => some "atomic"
  | .atomic, 2 => some "extr"
  | .atomic, _ => none
  | .ext, 0 => some "exts"
  | .ext, 1 => some "extp"
  | .ext, 2 => some "extsr"
  | .ext, 3 => some "extpr"

/-- The mnemonics of the table, in sub-opcode order. -/
def mnemonics (t : SubTable) : List String := (List.finRange 4).filterMap t.entry

/-- The last sub-opcode whose mnemonic is `mn`. -/
def select? (t : SubTable) (mn : String) : Option (Fin 4) :=
  ((List.finRange 4).filter fun i => t.entry i == some mn).getLast?

end SubTable

/-- An ext sub-opcode with an odd number takes a 10-bit page, an even one an 8-bit segment. -/
def isPageSub (i : Fin 4) : Bool := i.val % 2 = 1

/-- True for the ext mnemonics that take a page: `extp` and `extpr`. -/
def isPageMnemonic (mn : String) : Bool :=
  match (List.finRange 4).find? (fun i => SubTable.ext.entry i == some mn) with
  | some i => isPageSub i
  | none => false

/-- How the operands of an opcode are packed into its bytes. -/
inductive Layout where
  | nm
  | mn
  | n0
  | nn
  | dataN
  | data3OrReg
  | condRel
  | bitShort
  | condReg
  | rel
  | reg
  | const
  | trap
  | complemented
  | atomic
  | extReg
  | extImm
  | regMem
  | regData16
  | regData8
  | bitfield
  | bitfieldH
  | bitPair
  | bitRel
  | fnMem
  | fnData16
  | zeroNMem
  | nmData16
  | condCaddr
  | segCaddr
  deriving DecidableEq, Repr

namespace Layout

/-- Every layout, in the order of their numbers. -/
def all : List Layout :=
  [.nm, .mn, .n0, .nn, .dataN, .data3OrReg, .condRel, .bitShort, .condReg, .rel, .reg, .const,
   .trap, .complemented, .atomic, .extReg, .extImm, .regMem, .regData16, .regData8, .bitfield,
   .bitfieldH, .bitPair, .bitRel, .fnMem, .fnData16, .zeroNMem, .nmData16, .condCaddr, .segCaddr]

/-- The layout's number, from 1. -/
def id (l : Layout) : Nat := l.ctorIdx + 1

/-- The layout of a number from 1 to 30. -/
def ofId? (n : Nat) : Option Layout := if n = 0 then none else all[n - 1]?

/-- The byte diagram after the opcode byte. -/
def name : Layout → String
  | .nm => "nm"
  | .mn => "mn"
  | .n0 => "n0"
  | .nn => "nn"
  | .dataN => "#n"
  | .data3OrReg => "n:tt"
  | .condRel => "cD rr"
  | .bitShort => "qE QQ"
  | .condReg => "cn"
  | .rel => "rr"
  | .reg => "RR"
  | .const => "00"
  | .trap => "t:ttt0"
  | .complemented => "~op op op"
  | .atomic => ":ss##-0"
  | .extReg => ":ss##-m"
  | .extImm => ":ss##-0 pp 0:00pp"
  | .regMem => "RR MM MM"
  | .regData16 => "RR ## ##"
  | .regData8 => "RR ## xx"
  | .bitfield => "QQ @@ ##"
  | .bitfieldH => "QQ ## @@"
  | .bitPair => "QQ ZZ qz"
  | .bitRel => "QQ rr q0"
  | .fnMem => "Fn MM MM"
  | .fnData16 => "Fn ## ##"
  | .zeroNMem => "0n MM MM"
  | .nmData16 => "nm ## ##"
  | .condCaddr => "c0 MM MM"
  | .segCaddr => "SS MM MM"

/-- The instruction length in bytes: 2 or 4. -/
def length : Layout → Nat
  | .complemented | .extImm | .regMem | .regData16 | .regData8 | .bitfield | .bitfieldH
  | .bitPair | .bitRel | .fnMem | .fnData16 | .zeroNMem | .nmData16 | .condCaddr
  | .segCaddr => 4
  | _ => 2

/-- The field kept in the high nibble of the opcode byte. -/
def embedded : Layout → Option Field
  | .condRel => some .condition0
  | .bitShort => some .bit0
  | _ => none

/-- The sub-opcode table of the layout. -/
def subTable : Layout → Option SubTable
  | .atomic => some .atomic
  | .extReg | .extImm => some .ext
  | _ => none

/-- The mnemonics the sub-opcode selects, empty for a layout without sub-opcodes. -/
def subMnemonics (l : Layout) : List String := (l.subTable.map SubTable.mnemonics).getD []

theorem length_eq (l : Layout) : l.length = 2 ∨ l.length = 4 := by cases l <;> decide

theorem ofId?_id (l : Layout) : ofId? l.id = some l := by cases l <;> rfl

end Layout

end C166Codec
