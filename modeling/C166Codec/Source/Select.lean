import C166Codec.Source.Statement
import C166Codec.Encoding.Codec
/-!
# Choosing an encoding

A mnemonic has one or more opcodes (`Descriptor.byMnemonic`), shorter encodings first. The
first opcode whose every rule accepts the operands wins, and the operands are then bound to
its fields. The rules, in order:

1. count: the opcode has as many operand slots as there are operands;
2. kind: each operand's form is one its slot accepts;
3. width: byte registers stay out of word slots and the other way round; special function
   registers serve either width but never a nibble register field;
4. range: every number fits its field, a short address exists for every register or word in
   the window in force, and a displacement fits a signed byte;
5. index: the packed `[Rw]` and `[Rw+]` forms take only `r0`..`r3`;
6. embedded: a field kept in the opcode's high nibble equals that nibble.

A narrow literal that fits `#data3` or `#data4` is taken there, and a wide one is refused,
so writing `#0003h` asks for the 16-bit form.

Labels resolve through the context's label map. In a lax context (the first pass of
assembly) an unknown label binds to a placeholder, so that sizes can be computed before all
labels are known.
-/

namespace C166Codec

/-- What binding needs besides the operands. -/
structure Context where
  /-- The address of the instruction. -/
  pc : UInt32 := 0
  /-- The labels known so far. -/
  labels : List (String × UInt32) := []
  /-- True when an unknown label may stand for a placeholder. -/
  lax : Bool := false
  /-- True inside an ext window, where short addresses reach the extended registers. -/
  extended : Bool := false

namespace Context

/-- The address of a label. -/
def lookup (c : Context) (name : String) : Option UInt32 := c.labels.lookup name

end Context

namespace Select

/-! ## §1. Short addresses of operands -/

/-- The register short address of an operand, in the window chosen by `extended`. -/
def regShort? (o : Operand) (extended : Bool) : Option UInt8 :=
  match o.form with
  | .register r =>
    if r.isGeneral then some (0xF0 ||| r.num.toUInt8) else ShortAddress.regShort? r.address extended
  | .direct v _ => if v ≤ 0xFFFF then ShortAddress.regShort? v.toUInt16 extended else none
  | _ => none

/-- The 16-bit address of a direct operand or a special function register. -/
def memAddress? (o : Operand) : Option UInt16 :=
  match o.form with
  | .direct v _ => if v ≤ 0xFFFF then some v.toUInt16 else none
  | .register r => if r.isGeneral then none else some r.address
  | _ => none

/-- The bit short address of a whole bit-addressable word. -/
def bitoffShort? (o : Operand) (extended : Bool) : Option UInt8 :=
  match o.form with
  | .register (.word n) => some (0xF0 ||| n.val.toUInt8)
  | .register (.special s) => ShortAddress.bitShort? s.address extended
  | .direct v _ => if v ≤ 0xFFFF then ShortAddress.bitShort? v.toUInt16 extended else none
  | _ => none

/-- The bit short address of the word of a bit address. -/
def bitAddrShort? (o : Operand) (extended : Bool) : Option UInt8 :=
  match o.form with
  | .bitAddr (.register (.word n)) _ => some (0xF0 ||| n.val.toUInt8)
  | .bitAddr (.register r) _ => ShortAddress.bitShort? r.address extended
  | .bitAddr (.address a) _ => ShortAddress.bitShort? a.toUInt16 extended
  | _ => none

/-- The word displacement of a relative or label operand, measured from the end of an
instruction of `len` bytes at the context's address. An unknown label gives 0 in a lax
context; a target at an odd distance gives none. -/
def displacement? (o : Operand) (c : Context) (len : Nat) : Option Int :=
  match o.form with
  | .relative v => some v
  | _ =>
    match c.lookup o.label with
    | none => if c.lax then some 0 else none
    | some t =>
      let delta : Int := (t.toNat : Int) - c.pc.toNat - len
      if delta % 2 ≠ 0 then none else some (delta / 2)

/-! ## §2. The rules -/

/-- The operand forms a slot accepts. -/
def kindFits (k : SlotKind) (o : Operand) : Bool :=
  match k, o.form with
  | .rw, .register _ | .rb, .register _ => true
  | .regW, .register _ | .regW, .direct .. | .regB, .register _ | .regB, .direct .. => true
  | .mem, .direct .. | .mem, .register _ => true
  | .ind, .indirect _ | .postInc, .postInc _ | .preDec, .preDec _ | .indOff, .indexed .. => true
  | .data3OrInd, .immediate .. | .data3OrInd, .indirect _ | .data3OrInd, .postInc _ => true
  | .data4, .immediate .. | .data8, .immediate .. | .data16, .immediate .. => true
  | .mask8, .immediate .. => true
  | .bitAddr, .bitAddr .. => true
  | .bitoff, .register _ | .bitoff, .direct .. => true
  | .cond, .condition _ => true
  | .rel, .relative _ | .rel, .label _ => true
  | .caddr, .direct .. | .caddr, .label _ => true
  | .seg, .direct .. => true
  | .pageSeg, .immediate .. | .irange, .immediate .. | .trap, .immediate .. => true
  | _, _ => false

/-- Register operands of the right width. -/
def widthFits (k : SlotKind) (o : Operand) : Bool :=
  match o.form with
  | .register r =>
    match k, r with
    | .rw, .word _ => true
    | .rw, _ => false
    | .rb, .byte _ => true
    | .rb, _ => false
    | .regW, .byte _ => false
    | .regB, .word _ => false
    | .mem, _ => !r.isGeneral
    | .bitoff, .byte _ => false
    | _, _ => true
  | _ => true

/-- True when `lo ≤ v ≤ hi`. -/
def within (v : Int) (lo hi : Int) : Bool := lo ≤ v && v ≤ hi

/-- Numbers that fit their fields, and short addresses that exist. -/
def rangeFits (c : Context) (mn : String) (len : Nat) (k : SlotKind) (o : Operand) : Bool :=
  let v := o.value
  match k with
  | .regW | .regB => (regShort? o c.extended).isSome
  | .mem => (memAddress? o).isSome
  | .bitoff => (bitoffShort? o c.extended).isSome
  | .bitAddr => (bitAddrShort? o c.extended).isSome
  | .indOff | .data16 => within v 0 0xFFFF
  | .data3OrInd =>
    match o.form with
    | .immediate _ wide => !wide && within v 0 7
    | _ => true
  | .data4 => !o.wide && within v 0 0xF
  | .data8 | .mask8 => within v 0 0xFF
  | .trap => within v 0 0x7F
  | .irange => within v 1 4
  | .pageSeg => if isPageMnemonic mn then within v 0 0x3FF else within v 0 0xFF
  | .seg => within v 0 0xFF
  | .caddr =>
    match o.form with
    | .label l => (c.lookup l).isSome || c.lax
    | _ => within v 0 0xFFFF
  | .rel =>
    match displacement? o c len with
    | some r => within r (-128) 127
    | none => false
  | _ => true

/-- The packed indirect forms take only `r0`..`r3`. -/
def indexFits (k : SlotKind) (o : Operand) : Bool :=
  match k, o.form with
  | .data3OrInd, .immediate .. => true
  | .data3OrInd, _ => o.regNum ≤ 3
  | _, _ => true

/-! ## §3. Binding -/

/-- A number as a 32-bit word, modulo 2^32. -/
def word32 (i : Int) : UInt32 := (i % 4294967296).toNat.toUInt32

/-- The fields of one operand in its slot. -/
def bindSlot (c : Context) (mn : String) (len : Nat) (fs : Fields) (s : Slot) (o : Operand) :
    Fields :=
  match s.kind with
  | .rw | .rb | .ind | .postInc | .preDec => fs.setUInt s.field o.regNum.toUInt32
  | .regW | .regB => fs.setUInt s.field ((regShort? o c.extended).getD 0).toUInt32
  | .mem => fs.setUInt s.field ((memAddress? o).getD 0).toUInt32
  | .indOff =>
    let fs := fs.setUInt s.field o.regNum.toUInt32
    match s.aux with
    | some a => fs.setUInt a (word32 o.value)
    | none => fs
  | .data3OrInd =>
    match o.form with
    | .immediate v _ => (fs.setText .mode0 Mode.data3).setUInt .data0 v.toUInt32
    | .indirect r => (fs.setText .mode0 Mode.reg).setUInt .register1 r.val.toUInt32
    | .postInc r => (fs.setText .mode0 Mode.regInc).setUInt .register1 r.val.toUInt32
    | _ => fs
  | .data4 | .data8 | .data16 | .mask8 | .trap | .irange | .seg =>
    fs.setUInt s.field (word32 o.value)
  | .pageSeg =>
    fs.setUInt (if isPageMnemonic mn then .page0 else .segment0) (word32 o.value)
  | .bitAddr =>
    let fs := fs.setUInt s.field ((bitAddrShort? o c.extended).getD 0).toUInt32
    match s.aux with
    | some a => fs.setUInt a o.bit.toUInt32
    | none => fs
  | .bitoff => fs.setUInt s.field ((bitoffShort? o c.extended).getD 0).toUInt32
  | .cond => fs.setUInt s.field o.condition.code.val.toUInt32
  | .rel => fs.setInt s.field ((displacement? o c len).getD 0).toInt32
  | .caddr =>
    let addr := match o.form with
      | .label l => (c.lookup l).getD 0
      | _ => word32 o.value
    fs.setUInt s.field (addr &&& 0xFFFF)

/-- The fields of operands that passed every rule of an opcode. -/
def bind (d : Descriptor) (ops : List Operand) (c : Context) (mn : String) : Fields :=
  let base := if d.layout.subTable.isSome then Fields.empty.setText .mnemonic mn else Fields.empty
  (d.shape.slots.zip ops).foldl (fun fs p => bindSlot c mn d.length fs p.1 p.2) base

/-- The rules of selection, in the order they are checked. -/
inductive Rule where
  | count
  | kind
  | width
  | range
  | index
  | embedded
  deriving DecidableEq, Repr

/-- Every rule, in order. -/
def Rule.all : List Rule := [.count, .kind, .width, .range, .index, .embedded]

/-- Whether a rule accepts operands for an opcode. -/
def Rule.check (r : Rule) (d : Descriptor) (ops : List Operand) (c : Context) (mn : String) :
    Bool :=
  let perSlot (f : SlotKind → Operand → Bool) := (d.shape.slots.zip ops).all fun p => f p.1.kind p.2
  match r with
  | .count => d.shape.arity = ops.length
  | .kind => perSlot kindFits
  | .width => perSlot widthFits
  | .range => perSlot (rangeFits c mn d.length)
  | .index => perSlot indexFits
  | .embedded =>
    match d.layout.embedded with
    | none => true
    | some f => (bind d ops c mn).uint f = (d.opcode >>> 4).toUInt32

/-- True when every rule accepts the operands for the opcode. -/
def accepts (d : Descriptor) (ops : List Operand) (c : Context) (mn : String) : Bool :=
  Rule.all.all fun r => r.check d ops c mn

end Select

/-- The first opcode of a mnemonic (in any case) that accepts the operands, with the bound
fields. When none does, an undefined label is reported first (outside a lax context), then
the mnemonic and the operands as written. -/
def select (mn : String) (ops : List Operand) (c : Context) :
    Except SourceError (Descriptor × Fields) :=
  let mn := Text.lower mn
  match Descriptor.byMnemonic mn with
  | [] => .error (.unknownMnemonic mn)
  | candidates =>
    match candidates.find? fun d => Select.accepts d ops c mn with
    | some d => .ok (d, Select.bind d ops c mn)
    | none =>
      match ops.find? fun o => o.isLabel && !c.lax && (c.lookup o.label).isNone with
      | some o => .error (.undefinedLabel o.raw)
      | none => .error (.noEncoding mn (ops.map Operand.render))

/-- The bytes of one instruction in a context. -/
def encodeIn (mn : String) (ops : List Operand) (c : Context) : Except SourceError (List UInt8) :=
  match select mn ops c with
  | .error e => .error e
  | .ok (d, fs) =>
    match d.layout.encode d.opcode fs with
    | .error e => .error (.layout d e)
    | .ok b => .ok b

/-- The bytes of one instruction at address 0 with no labels. -/
def encode (mn : String) (ops : List Operand) : Except SourceError (List UInt8) :=
  encodeIn mn ops {}

/-- The bytes of a text holding exactly one instruction. Text after a NUL terminator is
ignored; text after a line feed must be blank. -/
def encodeLine (text : String) : Except SourceError (List UInt8) :=
  let (line, found, after) := Statement.breakLine text.toList
  let nul := found && (text.toList.drop line.length).head? = some '\x00'
  match Statement.parse line with
  | .error e => .error e
  | .ok st =>
    if !(Text.trimChars after).isEmpty && !nul then .error (.syntaxFault .moreThanOneLine)
    else
      match st.label, st.action with
      | none, .instruction mn ops => encode mn ops
      | _, _ => .error (.syntaxFault .notSingleInstruction)

end C166Codec
