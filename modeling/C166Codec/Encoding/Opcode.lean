import C166Codec.Encoding.Flags
import C166Codec.Encoding.Shape
import C166Codec.Encoding.Layout
/-!
# The opcode table

Each of the 256 opcode bytes is unused or has a descriptor: its mnemonic, operand shape, byte
layout and flags.

* Rows 0 to 7 of columns 0 to 9 are the eight two-operand families `add`, `addc`, `sub`,
  `subc`, `cmp`, `xor`, `and`, `or`, one column per operand form; odd columns are the byte
  forms, whose mnemonic ends in `b`. `cmp` has no memory-destination forms (columns 4 and 5).
* Columns D, E and F of every row are `jmpr`, `bclr` and `bset`, whose high nibble is the
  condition or the bit number.
* The other opcodes are listed one by one in `Descriptor.singles`.

Every descriptor whose shape has a register operand carries the `reg` flag.
`Descriptor.byMnemonic` lists the descriptors of a mnemonic with the shorter encodings first.
-/

namespace C166Codec

/-- What an opcode byte stands for. -/
structure Descriptor where
  opcode : UInt8
  mnemonic : String
  shape : Shape
  layout : Layout
  flags : Flags
  deriving DecidableEq, Repr

namespace Descriptor

/-- The encoded size in bytes. -/
def length (d : Descriptor) : Nat := d.layout.length

/-- Every mnemonic the opcode decodes to: the sub-opcode table's, or its own. -/
def mnemonics (d : Descriptor) : List String :=
  match d.layout.subTable with
  | some t => t.mnemonics
  | none => [d.mnemonic]

/-- The descriptor as `E6h mov reg,#data16 (RR ## ##) [move|reg]`. -/
def render (d : Descriptor) : String :=
  Text.upperHex 2 d.opcode.toNat ++ "h " ++ d.mnemonic ++ " " ++ d.shape.render ++ " (" ++
    d.layout.name ++ ") [" ++ d.flags.render ++ "]"

/-- The two-operand families of rows 0 to 7, with their flags. -/
def families : List (String × Flag) :=
  [("add", .arith), ("addc", .arith), ("sub", .arith), ("subc", .arith), ("cmp", .compare),
   ("xor", .logic), ("and", .logic), ("or", .logic)]

/-- The operand forms of columns 0 to 9: byte form or not, shape and layout. -/
def forms : List (Bool × Shape × Layout) :=
  [(false, .rwRw, .nm), (true, .rbRb, .nm), (false, .regMemW, .regMem),
   (true, .regMemB, .regMem), (false, .memRegW, .regMem), (true, .memRegB, .regMem),
   (false, .regData16, .regData16), (true, .regData8, .regData8),
   (false, .rwData3, .data3OrReg), (true, .rbData3, .data3OrReg)]

/-- The descriptor of a two-operand family at row `row` and column `col`. -/
def familyEntry (op : UInt8) (row col : Nat) : Option Descriptor := do
  let (name, flag) ← families[row]?
  let (isByte, shape, layout) ← forms[col]?
  if name = "cmp" ∧ (col = 4 ∨ col = 5) then none
  else some ⟨op, if isByte then name ++ "b" else name, shape, layout, Flags.ofList [flag]⟩

/-- The opcodes outside the regular columns. -/
def singles : List Descriptor := [
  ⟨0x0A, "bfldl", .bitfield, .bitfield, Flags.ofList [.logic]⟩,
  ⟨0x0B, "mul", .rwRw, .nm, Flags.ofList [.arith]⟩,
  ⟨0x0C, "rol", .rwRw, .nm, Flags.ofList [.logic]⟩,
  ⟨0x1A, "bfldh", .bitfield, .bitfieldH, Flags.ofList [.logic]⟩,
  ⟨0x1B, "mulu", .rwRw, .nm, Flags.ofList [.arith]⟩,
  ⟨0x1C, "rol", .rwData4, .dataN, Flags.ofList [.logic]⟩,
  ⟨0x2A, "bcmp", .bitPair, .bitPair, Flags.ofList [.compare]⟩,
  ⟨0x2B, "prior", .rwRw, .nm, Flags.ofList [.arith]⟩,
  ⟨0x2C, "ror", .rwRw, .nm, Flags.ofList [.logic]⟩,
  ⟨0x3A, "bmovn", .bitPair, .bitPair, Flags.ofList [.move]⟩,
  ⟨0x3C, "ror", .rwData4, .dataN, Flags.ofList [.logic]⟩,
  ⟨0x4A, "bmov", .bitPair, .bitPair, Flags.ofList [.move]⟩,
  ⟨0x4B, "div", .rw, .nn, Flags.ofList [.arith]⟩,
  ⟨0x4C, "shl", .rwRw, .nm, Flags.ofList [.logic]⟩,
  ⟨0x5A, "bor", .bitPair, .bitPair, Flags.ofList [.logic]⟩,
  ⟨0x5B, "divu", .rw, .nn, Flags.ofList [.arith]⟩,
  ⟨0x5C, "shl", .rwData4, .dataN, Flags.ofList [.logic]⟩,
  ⟨0x6A, "band", .bitPair, .bitPair, Flags.ofList [.logic]⟩,
  ⟨0x6B, "divl", .rw, .nn, Flags.ofList [.arith]⟩,
  ⟨0x6C, "shr", .rwRw, .nm, Flags.ofList [.logic]⟩,
  ⟨0x7A, "bxor", .bitPair, .bitPair, Flags.ofList [.logic]⟩,
  ⟨0x7B, "divlu", .rw, .nn, Flags.ofList [.arith]⟩,
  ⟨0x7C, "shr", .rwData4, .dataN, Flags.ofList [.logic]⟩,
  ⟨0x80, "cmpi1", .rwData4, .dataN, Flags.ofList [.compare, .arith]⟩,
  ⟨0x81, "neg", .rw, .n0, Flags.ofList [.arith]⟩,
  ⟨0x82, "cmpi1", .rwMem, .fnMem, Flags.ofList [.compare, .arith]⟩,
  ⟨0x84, "mov", .indMem, .zeroNMem, Flags.ofList [.move]⟩,
  ⟨0x86, "cmpi1", .rwData16, .fnData16, Flags.ofList [.compare, .arith]⟩,
  ⟨0x87, "idle", .empty, .complemented, Flags.ofList [.system]⟩,
  ⟨0x88, "mov", .preDecRw, .nm, Flags.ofList [.move]⟩,
  ⟨0x89, "movb", .preDecRb, .nm, Flags.ofList [.move]⟩,
  ⟨0x8A, "jb", .bitRel, .bitRel, Flags.ofList [.jump, .cond]⟩,
  ⟨0x90, "cmpi2", .rwData4, .dataN, Flags.ofList [.compare, .arith]⟩,
  ⟨0x91, "cpl", .rw, .n0, Flags.ofList [.logic]⟩,
  ⟨0x92, "cmpi2", .rwMem, .fnMem, Flags.ofList [.compare, .arith]⟩,
  ⟨0x94, "mov", .memInd, .zeroNMem, Flags.ofList [.move]⟩,
  ⟨0x96, "cmpi2", .rwData16, .fnData16, Flags.ofList [.compare, .arith]⟩,
  ⟨0x97, "pwrdn", .empty, .complemented, Flags.ofList [.system]⟩,
  ⟨0x98, "mov", .rwPostInc, .nm, Flags.ofList [.move]⟩,
  ⟨0x99, "movb", .rbPostInc, .nm, Flags.ofList [.move]⟩,
  ⟨0x9A, "jnb", .bitRel, .bitRel, Flags.ofList [.jump, .cond]⟩,
  ⟨0x9B, "trap", .trap, .trap, Flags.ofList [.trap]⟩,
  ⟨0x9C, "jmpi", .condInd, .condReg, Flags.ofList [.jump, .cond]⟩,
  ⟨0xA0, "cmpd1", .rwData4, .dataN, Flags.ofList [.compare, .arith]⟩,
  ⟨0xA1, "negb", .rb, .n0, Flags.ofList [.arith]⟩,
  ⟨0xA2, "cmpd1", .rwMem, .fnMem, Flags.ofList [.compare, .arith]⟩,
  ⟨0xA4, "movb", .indMemB, .zeroNMem, Flags.ofList [.move]⟩,
  ⟨0xA5, "diswdt", .empty, .complemented, Flags.ofList [.system]⟩,
  ⟨0xA6, "cmpd1", .rwData16, .fnData16, Flags.ofList [.compare, .arith]⟩,
  ⟨0xA7, "srvwdt", .empty, .complemented, Flags.ofList [.system]⟩,
  ⟨0xA8, "mov", .rwInd, .nm, Flags.ofList [.move]⟩,
  ⟨0xA9, "movb", .rbInd, .nm, Flags.ofList [.move]⟩,
  ⟨0xAA, "jbc", .bitRel, .bitRel, Flags.ofList [.jump, .cond]⟩,
  ⟨0xAB, "calli", .condInd, .condReg, Flags.ofList [.call, .cond]⟩,
  ⟨0xAC, "ashr", .rwRw, .nm, Flags.ofList [.logic]⟩,
  ⟨0xB0, "cmpd2", .rwData4, .dataN, Flags.ofList [.compare, .arith]⟩,
  ⟨0xB1, "cplb", .rb, .n0, Flags.ofList [.logic]⟩,
  ⟨0xB2, "cmpd2", .rwMem, .fnMem, Flags.ofList [.compare, .arith]⟩,
  ⟨0xB4, "movb", .memIndB, .zeroNMem, Flags.ofList [.move]⟩,
  ⟨0xB5, "einit", .empty, .complemented, Flags.ofList [.system]⟩,
  ⟨0xB6, "cmpd2", .rwData16, .fnData16, Flags.ofList [.compare, .arith]⟩,
  ⟨0xB7, "srst", .empty, .complemented, Flags.ofList [.system]⟩,
  ⟨0xB8, "mov", .indRw, .nm, Flags.ofList [.move]⟩,
  ⟨0xB9, "movb", .indRb, .nm, Flags.ofList [.move]⟩,
  ⟨0xBA, "jnbs", .bitRel, .bitRel, Flags.ofList [.jump, .cond]⟩,
  ⟨0xBB, "callr", .rel, .rel, Flags.ofList [.call]⟩,
  ⟨0xBC, "ashr", .rwData4, .dataN, Flags.ofList [.logic]⟩,
  ⟨0xC0, "movbz", .rwRb, .mn, Flags.ofList [.move]⟩,
  ⟨0xC2, "movbz", .regMemW, .regMem, Flags.ofList [.move]⟩,
  ⟨0xC4, "mov", .indOffRw, .nmData16, Flags.ofList [.move]⟩,
  ⟨0xC5, "movbz", .memRegB, .regMem, Flags.ofList [.move]⟩,
  ⟨0xC6, "scxt", .regData16, .regData16, Flags.ofList [.move]⟩,
  ⟨0xC8, "mov", .indInd, .nm, Flags.ofList [.move]⟩,
  ⟨0xC9, "movb", .indInd, .nm, Flags.ofList [.move]⟩,
  ⟨0xCA, "calla", .condCaddr, .condCaddr, Flags.ofList [.call, .cond]⟩,
  ⟨0xCB, "ret", .empty, .const, Flags.ofList [.ret]⟩,
  ⟨0xCC, "nop", .empty, .const, Flags.ofList [.null]⟩,
  ⟨0xD0, "movbs", .rwRb, .mn, Flags.ofList [.move]⟩,
  ⟨0xD1, "atomic", .irange, .atomic, Flags.ofList [.system]⟩,
  ⟨0xD2, "movbs", .regMemW, .regMem, Flags.ofList [.move]⟩,
  ⟨0xD4, "mov", .rwIndOff, .nmData16, Flags.ofList [.move]⟩,
  ⟨0xD5, "movbs", .memRegB, .regMem, Flags.ofList [.move]⟩,
  ⟨0xD6, "scxt", .regMemW, .regMem, Flags.ofList [.move]⟩,
  ⟨0xD7, "exts", .pageIrange, .extImm, Flags.ofList [.system]⟩,
  ⟨0xD8, "mov", .postIncInd, .nm, Flags.ofList [.move]⟩,
  ⟨0xD9, "movb", .postIncInd, .nm, Flags.ofList [.move]⟩,
  ⟨0xDA, "calls", .segCaddr, .segCaddr, Flags.ofList [.call]⟩,
  ⟨0xDB, "rets", .empty, .const, Flags.ofList [.ret]⟩,
  ⟨0xDC, "exts", .rwIrange, .extReg, Flags.ofList [.system]⟩,
  ⟨0xE0, "mov", .rwData4, .dataN, Flags.ofList [.move]⟩,
  ⟨0xE1, "movb", .rbData4, .dataN, Flags.ofList [.move]⟩,
  ⟨0xE2, "pcall", .regCaddr, .regMem, Flags.ofList [.call, .move]⟩,
  ⟨0xE4, "movb", .indOffRb, .nmData16, Flags.ofList [.move]⟩,
  ⟨0xE6, "mov", .regData16, .regData16, Flags.ofList [.move]⟩,
  ⟨0xE7, "movb", .regData8, .regData8, Flags.ofList [.move]⟩,
  ⟨0xE8, "mov", .indPostInc, .nm, Flags.ofList [.move]⟩,
  ⟨0xE9, "movb", .indPostInc, .nm, Flags.ofList [.move]⟩,
  ⟨0xEA, "jmpa", .condCaddr, .condCaddr, Flags.ofList [.jump, .cond]⟩,
  ⟨0xEB, "retp", .reg, .reg, Flags.ofList [.ret]⟩,
  ⟨0xEC, "push", .reg, .reg, Flags.ofList [.move]⟩,
  ⟨0xF0, "mov", .rwRw, .nm, Flags.ofList [.move]⟩,
  ⟨0xF1, "movb", .rbRb, .nm, Flags.ofList [.move]⟩,
  ⟨0xF2, "mov", .regMemW, .regMem, Flags.ofList [.move]⟩,
  ⟨0xF3, "movb", .regMemB, .regMem, Flags.ofList [.move]⟩,
  ⟨0xF4, "movb", .rbIndOff, .nmData16, Flags.ofList [.move]⟩,
  ⟨0xF6, "mov", .memRegW, .regMem, Flags.ofList [.move]⟩,
  ⟨0xF7, "movb", .memRegB, .regMem, Flags.ofList [.move]⟩,
  ⟨0xFA, "jmps", .segCaddr, .segCaddr, Flags.ofList [.jump]⟩,
  ⟨0xFB, "reti", .empty, .const, Flags.ofList [.ret]⟩,
  ⟨0xFC, "pop", .reg, .reg, Flags.ofList [.move]⟩
]

/-- The descriptor before the `reg` flag is added. -/
def plain? (op : UInt8) : Option Descriptor :=
  let row := op.toNat / 16
  let col := op.toNat % 16
  if row < 8 ∧ col < 10 then familyEntry op row col
  else if col = 0xD then
    some ⟨op, "jmpr", .condRel, .condRel, Flags.ofList (if row = 0 then [.jump] else [.jump, .cond])⟩
  else if col = 0xE then some ⟨op, "bclr", .bit, .bitShort, Flags.ofList [.logic]⟩
  else if col = 0xF then some ⟨op, "bset", .bit, .bitShort, Flags.ofList [.logic]⟩
  else singles.find? (·.opcode == op)

/-- The descriptor with the `reg` flag when an operand names a register. -/
def markRegister (d : Descriptor) : Descriptor :=
  if d.shape.hasRegister then { d with flags := d.flags.insert .reg } else d

/-- The descriptor of an opcode byte, `none` for an unused one. -/
def lookup? (op : UInt8) : Option Descriptor := (plain? op).map markRegister

/-- Every descriptor, in opcode order. -/
def all : List Descriptor := (List.range 256).filterMap fun n => lookup? n.toUInt8

/-- The descriptors of a mnemonic (exact spelling), two-byte encodings first, each group in
opcode order. -/
def byMnemonic (mn : String) : List Descriptor :=
  let ds := all.filter fun d => d.mnemonics.contains mn
  ds.filter (·.length = 2) ++ ds.filter (·.length = 4)

end Descriptor

end C166Codec
