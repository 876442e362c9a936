import C166Codec.Encoding.Field
/-!
# Operand shapes

An opcode's shape is the list of its operand slots in assembly order. A slot says how its
operand is written (a word register, a short register address, an immediate of some width, a
bit address, a condition, a displacement, ...) and which field carries it; a bit address and
an indexed operand `[Rw + #data16]` use a second field for the bit number or the offset.
-/

namespace C166Codec

/-- How one operand is written in assembly text. -/
inductive SlotKind where
  /-- A word register in a nibble. -/
  | rw
  /-- A byte register in a nibble. -/
  | rb
  /-- An 8-bit short register address, word access. -/
  | regW
  /-- An 8-bit short register address, byte access. -/
  | regB
  /-- A 16-bit direct address. -/
  | mem
  /-- `[Rw]`. -/
  | ind
  /-- `[Rw+]`. -/
  | postInc
  /-- `[-Rw]`. -/
  | preDec
  /-- `[Rw + #data16]`, the offset in the second field. -/
  | indOff
  /-- `#data3`, `[Rw]` or `[Rw+]`, told apart by the mode field. -/
  | data3OrInd
  | data4
  | data8
  | data16
  | mask8
  /-- A bit of a bit-addressable word, the bit number in the second field. -/
  | bitAddr
  /-- A bit-addressable word without a bit number. -/
  | bitoff
  | cond
  /-- A signed displacement in words. -/
  | rel
  /-- A 16-bit code address. -/
  | caddr
  /-- An 8-bit code segment. -/
  | seg
  /-- A 10-bit page or an 8-bit segment, chosen by the ext mnemonic. -/
  | pageSeg
  /-- The length of an ext window, written 1 to 4. -/
  | irange
  | trap
  deriving DecidableEq, Repr

namespace SlotKind

/-- The kind's name in operand patterns. -/
def name : SlotKind → String
  | .rw => "Rw"
  | .rb => "Rb"
  | .regW => "reg"
  | .regB => "regb"
  | .mem => "mem"
  | .ind => "[Rw]"
  | .postInc => "[Rw+]"
  | .preDec => "[-Rw]"
  | .indOff => "[Rw+#data16]"
  | .data3OrInd => "#data3/[Rw]"
  | .data4 => "#data4"
  | .data8 => "#data8"
  | .data16 => "#data16"
  | .mask8 => "#mask8"
  | .bitAddr => "bitaddr"
  | .bitoff => "bitoff"
  | .cond => "cc"
  | .rel => "rel"
  | .caddr => "caddr"
  | .seg => "seg"
  | .pageSeg => "#pag/#seg"
  | .irange => "#irang2"
  | .trap => "#trap7"

/-- True for the kinds whose operand names a register. -/
def namesRegister : SlotKind → Bool
  | .rw | .rb | .regW | .regB | .ind | .postInc | .preDec | .indOff | .data3OrInd => true
  | _ => false

end SlotKind

/-- One operand position and the fields that carry it. -/
structure Slot where
  kind : SlotKind
  field : Field
  /-- The bit number of a bit address or the offset of an indexed operand. -/
  aux : Option Field
  deriving DecidableEq, Repr

/-- The operand pattern of an opcode. -/
inductive Shape where
  | empty
  | rwRw
  | rbRb
  | regMemW
  | regMemB
  | memRegW
  | memRegB
  | regData16
  | regData8
  | rwData3
  | rbData3
  | bitfield
  | bitPair
  | bitRel
  | bit
  | condRel
  | rw
  | rb
  | rwData4
  | rbData4
  | rwMem
  | rwData16
  | indMem
  | indMemB
  | memInd
  | memIndB
  | rwRb
  | preDecRw
  | preDecRb
  | rwPostInc
  | rbPostInc
  | rwInd
  | rbInd
  | indRw
  | indRb
  | indInd
  | postIncInd
  | indPostInc
  | indOffRw
  | indOffRb
  | rwIndOff
  | rbIndOff
  | condInd
  | condCaddr
  | segCaddr
  | rel
  | reg
  | regCaddr
  | trap
  | irange
  | rwIrange
  | pageIrange
  deriving DecidableEq, Repr

namespace Shape

/-- The shape's number, from 0 in declaration order. -/
def id (s : Shape) : Nat := s.ctorIdx

/-- The operand slots in assembly order. -/
def slots : Shape → List Slot
  | .empty => []
  | .rwRw => [⟨.rw, .register0, none⟩, ⟨.rw, .register1, none⟩]
  | .rbRb => [⟨.rb, .register0, none⟩, ⟨.rb, .register1, none⟩]
  | .regMemW => [⟨.regW, .register0, none⟩, ⟨.mem, .address0, none⟩]
  | .regMemB => [⟨.regB, .register0, none⟩, ⟨.mem, .address0, none⟩]
  | .memRegW => [⟨.mem, .address0, none⟩, ⟨.regW, .register0, none⟩]
  | .memRegB => [⟨.mem, .address0, none⟩, ⟨.regB, .register0, none⟩]
  | .regData16 => [⟨.regW, .register0, none⟩, ⟨.data16, .data0, none⟩]
  | .regData8 => [⟨.regB, .register0, none⟩, ⟨.data8, .data0, none⟩]
  | .rwData3 => [⟨.rw, .register0, none⟩, ⟨.data3OrInd, .data0, none⟩]
  | .rbData3 => [⟨.rb, .register0, none⟩, ⟨.data3OrInd, .data0, none⟩]
  | .bitfield => [⟨.bitoff, .bitoff0, none⟩, ⟨.mask8, .mask0, none⟩, ⟨.data8, .data0, none⟩]
  | .bitPair => [⟨.bitAddr, .bitoff1, some .bit1⟩, ⟨.bitAddr, .bitoff0, some .bit0⟩]
  | .bitRel => [⟨.bitAddr, .bitoff0, some .bit0⟩, ⟨.rel, .relative0, none⟩]
  | .bit => [⟨.bitAddr, .bitoff0, some .bit0⟩]
  | .condRel => [⟨.cond, .condition0, none⟩, ⟨.rel, .relative0, none⟩]
  | .rw => [⟨.rw, .register0, none⟩]
  | .rb => [⟨.rb, .register0, none⟩]
  | .rwData4 => [⟨.rw, .register0, none⟩, ⟨.data4, .data0, none⟩]
  | .rbData4 => [⟨.rb, .register0, none⟩, ⟨.data4, .data0, none⟩]
  | .rwMem => [⟨.rw, .register0, none⟩, ⟨.mem, .address0, none⟩]
  | .rwData16 => [⟨.rw, .register0, none⟩, ⟨.data16, .data0, none⟩]
  | .indMem => [⟨.ind, .register0, none⟩, ⟨.mem, .address0, none⟩]
  | .indMemB => [⟨.ind, .register0, none⟩, ⟨.mem, .address0, none⟩]
  | .memInd => [⟨.mem, .address0, none⟩, ⟨.ind, .register0, none⟩]
  | .memIndB => [⟨.mem, .address0, none⟩, ⟨.ind, .register0, none⟩]
  | .rwRb => [⟨.rw, .register0, none⟩, ⟨.rb, .register1, none⟩]
  | .preDecRw => [⟨.preDec, .register1, none⟩, ⟨.rw, .register0, none⟩]
  | .preDecRb => [⟨.preDec, .register1, none⟩, ⟨.rb, .register0, none⟩]
  | .rwPostInc => [⟨.rw, .register0, none⟩, ⟨.postInc, .register1, none⟩]
  | .rbPostInc => [⟨.rb, .register0, none⟩, ⟨.postInc, .register1, none⟩]
  | .rwInd => [⟨.rw, .register0, none⟩, ⟨.ind, .register1, none⟩]
  | .rbInd => [⟨.rb, .register0, none⟩, ⟨.ind, .register1, none⟩]
  | .indRw => [⟨.ind, .register1, none⟩, ⟨.rw, .register0, none⟩]
  | .indRb => [⟨.ind, .register1, none⟩, ⟨.rb, .register0, none⟩]
  | .indInd => [⟨.ind, .register0, none⟩, ⟨.ind, .register1, none⟩]
  | .postIncInd => [⟨.postInc, .register0, none⟩, ⟨.ind, .register1, none⟩]
  | .indPostInc => [⟨.ind, .register0, none⟩, ⟨.postInc, .register1, none⟩]
  | .indOffRw => [⟨.indOff, .register1, some .data0⟩, ⟨.rw, .register0, none⟩]
  | .indOffRb => [⟨.indOff, .register1, some .data0⟩, ⟨.rb, .register0, none⟩]
  | .rwIndOff => [⟨.rw, .register0, none⟩, ⟨.indOff, .register1, some .data0⟩]
  | .rbIndOff => [⟨.rb, .register0, none⟩, ⟨.indOff, .register1, some .data0⟩]
  | .condInd => [⟨.cond, .condition0, none⟩, ⟨.ind, .register0, none⟩]
  | .condCaddr => [⟨.cond, .condition0, none⟩, ⟨.caddr, .address0, none⟩]
  | .segCaddr => [⟨.seg, .segment0, none⟩, ⟨.caddr, .address0, none⟩]
  | .rel => [⟨.rel, .relative0, none⟩]
  | .reg => [⟨.regW, .register0, none⟩]
  | .regCaddr => [⟨.regW, .register0, none⟩, ⟨.caddr, .address0, none⟩]
  | .trap => [⟨.trap, .trap0, none⟩]
  | .irange => [⟨.irange, .irange0, none⟩]
  | .rwIrange => [⟨.rw, .register0, none⟩, ⟨.irange, .irange0, none⟩]
  | .pageIrange => [⟨.pageSeg, .page0, none⟩, ⟨.irange, .irange0, none⟩]

/-- The number of operands. -/
def arity (s : Shape) : Nat := s.slots.length

/-- True when some operand names a register. -/
def hasRegister (s : Shape) : Bool := s.slots.any (·.kind.namesRegister)

/-- The slot kinds joined by `,`, or `-` for no operand. -/
def render (s : Shape) : String :=
  match s.slots with
  | [] => "-"
  | l => ",".intercalate (l.map (·.kind.name))

end Shape

end C166Codec
