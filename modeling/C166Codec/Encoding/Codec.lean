import C166Codec.Encoding.Fault
import C166Codec.Machine.Word
/-!
# Layout codecs

Each layout decodes the bytes of one instruction into a field map and encodes a field map
back into bytes.

* `Layout.decode` reads exactly the layout's length from the front of the bytes. It sets the
  embedded field (if any) from the high nibble of the opcode byte, then the fields of the
  bytes after it; a reserved pattern is refused with the instruction's bytes and the reason.
* `Layout.encode` checks the embedded field against the opcode's high nibble, then packs the
  fields in the layout's order, refusing the first one that is missing or too large.

Main facts: `decode` fails exactly on short input or a reserved pattern, and the length of
what `encode` writes is the layout's length (`length_encode`).
-/

namespace C166Codec

namespace Layout

/-! ## §1. Reading bytes -/

/-- The high nibble of a byte. -/
def hi (b : UInt8) : UInt8 := b >>> 4

/-- The low nibble of a byte. -/
def lo (b : UInt8) : UInt8 := b &&& 0xF

/-- A byte as an unsigned value. -/
def unsigned (b : UInt8) : Value := .uint b.toUInt32

/-- A byte as a signed displacement. -/
def signed (b : UInt8) : Value := .int b.toInt8.toInt32

/-- A little-endian word as an unsigned value. -/
def wordValue (l h : UInt8) : Value := .uint (Word.join l h).toUInt32

/-- The second byte of a `00` layout: 88h after opcode FBh, 00h after every other. -/
def constByte (op : UInt8) : UInt8 := if op = 0xFB then 0x88 else 0

/-- The sub-opcode of a byte: its top two bits. -/
def subOf (b : UInt8) : Fin 4 := ⟨(b >>> 6).toNat % 4, Nat.mod_lt _ (by decide)⟩

/-- The mnemonic of the top two bits, and the ext range of the next two plus one. -/
def decodeSub (t : SubTable) (b : UInt8) : Except Malformation (List (Field × Value)) :=
  match t.entry (subOf b) with
  | none => .error .reservedSubOpcode
  | some name => .ok [(.mnemonic, .text name), (.irange0, .uint (((b >>> 4) &&& 3).toUInt32 + 1))]

/-- The fields of the bytes after the opcode byte `op`, or the reserved pattern they hold. -/
def decodeBody (l : Layout) (op b1 b2 b3 : UInt8) : Except Malformation (List (Field × Value)) :=
  match l with
  | .nm => .ok [(.register0, unsigned (hi b1)), (.register1, unsigned (lo b1))]
  | .mn => .ok [(.register0, unsigned (lo b1)), (.register1, unsigned (hi b1))]
  | .n0 => if lo b1 ≠ 0 then .error .lowNibbleSet else .ok [(.register0, unsigned (hi b1))]
  | .nn => if hi b1 ≠ lo b1 then .error .nibblesDiffer else .ok [(.register0, unsigned (hi b1))]
  | .dataN => .ok [(.data0, unsigned (hi b1)), (.register0, unsigned (lo b1))]
  | .data3OrReg =>
    let tag := (b1 >>> 2) &&& 3
    if tag < 2 then
      .ok [(.register0, unsigned (hi b1)), (.mode0, .text Mode.data3), (.data0, unsigned (b1 &&& 7))]
    else
      .ok [(.register0, unsigned (hi b1)),
        (.mode0, .text (if tag = 2 then Mode.reg else Mode.regInc)),
        (.register1, unsigned (b1 &&& 3))]
  | .condRel => .ok [(.relative0, signed b1)]
  | .bitShort => .ok [(.bitoff0, unsigned b1)]
  | .condReg => .ok [(.condition0, unsigned (hi b1)), (.register0, unsigned (lo b1))]
  | .rel => .ok [(.relative0, signed b1)]
  | .reg => .ok [(.register0, unsigned b1)]
  | .const => if b1 ≠ constByte op then .error .unexpectedSecondByte else .ok []
  | .trap => if b1 &&& 1 ≠ 0 then .error .trapBitSet else .ok [(.trap0, unsigned (b1 >>> 1))]
  | .complemented =>
    if b1 ≠ ~~~op ∨ b2 ≠ op ∨ b3 ≠ op then .error .complementBroken else .ok []
  | .atomic => if lo b1 ≠ 0 then .error .lowNibbleSet else decodeSub .atomic b1
  | .extReg => (decodeSub .ext b1).map ((.register0, unsigned (lo b1)) :: ·)
  | .extImm =>
    if lo b1 ≠ 0 then .error .lowNibbleSet
    else
      match decodeSub .ext b1 with
      | .error e => .error e
      | .ok sub =>
        if isPageSub (subOf b1) then
          if b3 &&& 0xFC ≠ 0 then .error .pageTooWide
          else .ok (sub ++ [(.page0, .uint (b2.toUInt32 ||| ((b3 &&& 3).toUInt32 <<< 8)))])
        else if b3 ≠ 0 then .error .segmentHighByteSet
        else .ok (sub ++ [(.segment0, unsigned b2)])
  | .regMem => .ok [(.register0, unsigned b1), (.address0, wordValue b2 b3)]
  | .regData16 => .ok [(.register0, unsigned b1), (.data0, wordValue b2 b3)]
  | .regData8 => .ok [(.register0, unsigned b1), (.data0, unsigned b2)]
  | .bitfield => .ok [(.bitoff0, unsigned b1), (.mask0, unsigned b2), (.data0, unsigned b3)]
  | .bitfieldH => .ok [(.bitoff0, unsigned b1), (.data0, unsigned b2), (.mask0, unsigned b3)]
  | .bitPair =>
    .ok [(.bitoff0, unsigned b1), (.bitoff1, unsigned b2), (.bit0, unsigned (hi b3)),
      (.bit1, unsigned (lo b3))]
  | .bitRel =>
    if lo b3 ≠ 0 then .error .bitByteLowNibbleSet
    else .ok [(.bitoff0, unsigned b1), (.relative0, signed b2), (.bit0, unsigned (hi b3))]
  | .fnMem =>
    if hi b1 ≠ 0xF then .error .highNibbleNotF
    else .ok [(.register0, unsigned (lo b1)), (.address0, wordValue b2 b3)]
  | .fnData16 =>
    if hi b1 ≠ 0xF then .error .highNibbleNotF
    else .ok [(.register0, unsigned (lo b1)), (.data0, wordValue b2 b3)]
  | .zeroNMem =>
    if hi b1 ≠ 0 then .error .highNibbleNotZero
    else .ok [(.register0, unsigned (lo b1)), (.address0, wordValue b2 b3)]
  | .nmData16 =>
    .ok [(.register0, unsigned (hi b1)), (.register1, unsigned (lo b1)), (.data0, wordValue b2 b3)]
  | .condCaddr =>
    if lo b1 ≠ 0 then .error .conditionLowNibbleSet
    else .ok [(.condition0, unsigned (hi b1)), (.address0, wordValue b2 b3)]
  | .segCaddr =>
    .ok [(.segment0, unsigned b1), (.address0, wordValue b2 b3),
      (.address1, .uint (b1.toUInt32 * 0x10000 + (Word.join b2 b3).toUInt32))]

/-- The embedded field's setting for opcode byte `op`. -/
def embeddedSetting (l : Layout) (op : UInt8) : List (Field × Value) :=
  match l.embedded with
  | some f => [(f, unsigned (hi op))]
  | none => []

/-- The fields of the instruction at the front of `code`. -/
def decode (l : Layout) (code : List UInt8) : Except LayoutError Fields :=
  if code.length < l.length then .error (.truncated l code.length)
  else
    let b := code.take l.length
    let op := b.getD 0 0
    match l.decodeBody op (b.getD 1 0) (b.getD 2 0) (b.getD 3 0) with
    | .error why => .error (.malformed b why)
    | .ok body => .ok (Fields.ofList (l.embeddedSetting op ++ body))

/-! ## §2. Writing bytes -/

/-- A field that must be set and at most `max`; a negative signed value never fits. -/
def need (fs : Fields) (f : Field) (max : UInt32) : Except LayoutError UInt32 :=
  match fs.get? f with
  | none => .error (.missing f)
  | some v =>
    if (v.isSigned && v.asInt < 0) || v.asUInt > max then .error (.exceeds f v max)
    else .ok v.asUInt

/-- A field that must fit a byte. -/
def needByte (fs : Fields) (f : Field) : Except LayoutError UInt8 :=
  (need fs f 0xFF).map (·.toUInt8)

/-- A field that must fit a nibble. -/
def needNibble (fs : Fields) (f : Field) : Except LayoutError UInt8 :=
  (need fs f 0xF).map (·.toUInt8)

/-- Two fields that must fit a nibble each, packed high then low. -/
def needNibbles (fs : Fields) (high low : Field) : Except LayoutError UInt8 := do
  let h ← needNibble fs high
  let l ← needNibble fs low
  pure ((h <<< 4) ||| l)

/-- A field that must fit a word, written low byte first. -/
def needWord (fs : Fields) (f : Field) : Except LayoutError (List UInt8) :=
  (need fs f 0xFFFF).map (fun v => Word.split v.toUInt16)

/-- The displacement, read as signed, that must lie in -128..127. -/
def needDisplacement (fs : Fields) : Except LayoutError UInt8 :=
  match fs.get? .relative0 with
  | none => .error (.missing .relative0)
  | some v =>
    let r := v.asInt
    if r < -128 || r > 127 then .error (.displacement r) else .ok r.toInt8.toUInt8

/-- The sub-opcode of the mnemonic field and the ext range, which must be 1 to 4. -/
def needSub (t : SubTable) (fs : Fields) : Except LayoutError (Fin 4 × UInt32) :=
  let name := fs.text .mnemonic
  match t.select? name with
  | none => .error (.subOpcode name)
  | some sel =>
    match fs.get? .irange0 with
    | some v => if v.asUInt < 1 || v.asUInt > 4 then .error .irange else .ok (sel, v.asUInt)
    | none => .error .irange

/-- The byte of a sub-opcode and an ext range. -/
def subByte (sel : Fin 4) (r : UInt32) : UInt8 :=
  (sel.val.toUInt8 <<< 6) ||| ((r - 1).toUInt8 <<< 4)

/-- The low three bits of a data-or-register byte, by the mode tag. -/
def needModeBits (fs : Fields) (mode : String) : Except LayoutError UInt8 :=
  if mode = Mode.data3 then (need fs .data0 7).map (·.toUInt8)
  else if mode = Mode.reg then (need fs .register1 3).map (·.toUInt8 ||| 8)
  else if mode = Mode.regInc then (need fs .register1 3).map (·.toUInt8 ||| 0xC)
  else .error (.unknownMode mode)

/-- The bytes after the opcode byte `op`. -/
def encodeBody (l : Layout) (op : UInt8) (fs : Fields) : Except LayoutError (List UInt8) :=
  match l with
  | .nm => do pure [← needNibbles fs .register0 .register1]
  | .mn => do pure [← needNibbles fs .register1 .register0]
  | .n0 => do pure [(← needNibble fs .register0) <<< 4]
  | .nn => do
    let n ← needNibble fs .register0
    pure [(n <<< 4) ||| n]
  | .dataN => do pure [← needNibbles fs .data0 .register0]
  | .data3OrReg => do
    let n ← needNibble fs .register0
    match fs.get? .mode0 with
    | none => throw (.missing .mode0)
    | some mode => pure [(n <<< 4) ||| (← needModeBits fs mode.asText)]
  | .condRel | .rel => do pure [← needDisplacement fs]
  | .bitShort => do pure [← needByte fs .bitoff0]
  | .condReg => do pure [← needNibbles fs .condition0 .register0]
  | .reg => do pure [← needByte fs .register0]
  | .const => pure [constByte op]
  | .trap => do pure [(← need fs .trap0 0x7F).toUInt8 <<< 1]
  | .complemented => pure [~~~op, op, op]
  | .atomic => do
    let (sel, r) ← needSub .atomic fs
    pure [subByte sel r]
  | .extReg => do
    let (sel, r) ← needSub .ext fs
    let m ← needNibble fs .register0
    pure [subByte sel r ||| m]
  | .extImm => do
    let (sel, r) ← needSub .ext fs
    if isPageSub sel then
      let p ← need fs .page0 0x3FF
      pure [subByte sel r, p.toUInt8, (p >>> 8).toUInt8]
    else
      let s ← need fs .segment0 0xFF
      pure [subByte sel r, s.toUInt8, 0]
  | .regMem => do
    let r ← needByte fs .register0
    pure (r :: (← needWord fs .address0))
  | .regData16 => do
    let r ← needByte fs .register0
    pure (r :: (← needWord fs .data0))
  | .regData8 => do
    let r ← needByte fs .register0
    let d ← needByte fs .data0
    pure [r, d, 0]
  | .bitfield => do
    let q ← needByte fs .bitoff0
    let m ← needByte fs .mask0
    let d ← needByte fs .data0
    pure [q, m, d]
  | .bitfieldH => do
    let q ← needByte fs .bitoff0
    let d ← needByte fs .data0
    let m ← needByte fs .mask0
    pure [q, d, m]
  | .bitPair => do
    let q ← needByte fs .bitoff0
    let z ← needByte fs .bitoff1
    let n ← needNibbles fs .bit0 .bit1
    pure [q, z, n]
  | .bitRel => do
    let q ← needByte fs .bitoff0
    let r ← needDisplacement fs
    let b ← needNibble fs .bit0
    pure [q, r, b <<< 4]
  | .fnMem => do
    let n ← needNibble fs .register0
    pure ((0xF0 ||| n) :: (← needWord fs .address0))
  | .fnData16 => do
    let n ← needNibble fs .register0
    pure ((0xF0 ||| n) :: (← needWord fs .data0))
  | .zeroNMem => do
    let n ← needNibble fs .register0
    pure (n :: (← needWord fs .address0))
  | .nmData16 => do
    let n ← needNibbles fs .register0 .register1
    pure (n :: (← needWord fs .data0))
  | .condCaddr => do
    let c ← needNibble fs .condition0
    pure ((c <<< 4) :: (← needWord fs .address0))
  | .segCaddr => do
    let s ← needByte fs .segment0
    pure (s :: (← needWord fs .address0))

/-- The embedded field must be set and equal to the high nibble of the opcode byte. -/
def checkEmbedded (l : Layout) (op : UInt8) (fs : Fields) : Except LayoutError Unit :=
  match l.embedded with
  | none => .ok ()
  | some e => do
    let v ← need fs e 0xF
    if v ≠ (hi op).toUInt32 then throw (.notEncodedBy e v op)

/-- The bytes of an instruction with opcode byte `op` and fields `fs`. -/
def encode (l : Layout) (op : UInt8) (fs : Fields) : Except LayoutError (List UInt8) := do
  l.checkEmbedded op fs
  pure (op :: (← l.encodeBody op fs))

end Layout

end C166Codec
