import C166Codec.Text.Hex
import C166Codec.Text.Quoted
/-!
# Instruction fields

An instruction's operands are carried by named fields: registers, data, addresses, bit
numbers, a condition, a segment or page, a displacement, a mask, an ext range, a trap number,
the mode of the data-or-register operand, and the mnemonic a sub-opcode selects.

A field holds a `Value`: an unsigned or a signed 32-bit number, or a text. A field map
`Fields` holds at most one value per field. Its view `Fields.toList` lists the set fields in
field order; `Fields.render` writes them as `name=value` pairs.

Main facts: `get?_set` says what `set` does to a lookup, and `uint_set_uint`, the form every
decoder relies on, reads an unsigned value back.
-/

namespace C166Codec

/-- The fields of an instruction, in field order. -/
inductive Field where
  | register0
  | register1
  | data0
  | address0
  /-- A far address, `segment·10000h + offset`. -/
  | address1
  | bitoff0
  | bitoff1
  | bit0
  | bit1
  | condition0
  | segment0
  | page0
  | relative0
  | mask0
  | irange0
  | trap0
  /-- The data-or-register tag: `#data3`, `reg` or `reg_inc`. -/
  | mode0
  /-- The mnemonic chosen by a sub-opcode. -/
  | mnemonic
  deriving DecidableEq, Repr

namespace Field

/-- Every field, in field order. -/
def all : List Field :=
  [.register0, .register1, .data0, .address0, .address1, .bitoff0, .bitoff1, .bit0, .bit1,
   .condition0, .segment0, .page0, .relative0, .mask0, .irange0, .trap0, .mode0, .mnemonic]

/-- The position of a field in field order, from 0. -/
def index (f : Field) : Nat := f.ctorIdx

/-- The field's name. -/
def name : Field → String
  | .register0 => "register0"
  | .register1 => "register1"
  | .data0 => "data0"
  | .address0 => "address0"
  | .address1 => "address1"
  | .bitoff0 => "bitoff0"
  | .bitoff1 => "bitoff1"
  | .bit0 => "bit0"
  | .bit1 => "bit1"
  | .condition0 => "condition0"
  | .segment0 => "segment0"
  | .page0 => "page0"
  | .relative0 => "relative0"
  | .mask0 => "mask0"
  | .irange0 => "irange0"
  | .trap0 => "trap0"
  | .mode0 => "mode0"
  | .mnemonic => "mnemonic"

/-- The field of a name. -/
def ofName? (s : String) : Option Field := all.find? (·.name == s)

theorem mem_all (f : Field) : f ∈ all := by cases f <;> decide

end Field

/-- The mode tags of the data-or-register operand. -/
def Mode.data3 : String := "#data3"

/-- The tag of an indirect register operand. -/
def Mode.reg : String := "reg"

/-- The tag of an indirect register operand with post-increment. -/
def Mode.regInc : String := "reg_inc"

/-- The value of a field. -/
inductive Value where
  | uint (n : UInt32)
  | int (i : Int32)
  | text (s : String)
  deriving DecidableEq, Repr

namespace Value

/-- The value as an unsigned number; a signed number is read by its bits, a text as 0. -/
def asUInt : Value → UInt32
  | .uint n => n
  | .int i => i.toUInt32
  | .text _ => 0

/-- The value as a signed number; an unsigned number is read by its bits, a text as 0. -/
def asInt : Value → Int32
  | .uint n => n.toInt32
  | .int i => i
  | .text _ => 0

/-- The text of a value, empty for a number. -/
def asText : Value → String
  | .text s => s
  | _ => ""

/-- True for a signed value. -/
def isSigned : Value → Bool
  | .int _ => true
  | _ => false

/-- The written value: `0x1f` when unsigned, decimal when signed, quoted when a text. -/
def render : Value → String
  | .uint n => Text.prefixedHex n.toNat
  | .int i => toString i.toInt
  | .text s => Text.quote s

end Value

/-- A map from fields to values; a field not set has no value. -/
structure Fields where
  get? : Field → Option Value

namespace Fields

/-- The map with no field set. -/
def empty : Fields := ⟨fun _ => none⟩

/-- The map with field `f` set to `v`. -/
def set (fs : Fields) (f : Field) (v : Value) : Fields :=
  ⟨fun g => if g = f then some v else fs.get? g⟩

/-- The map with field `f` set to the unsigned `n`. -/
def setUInt (fs : Fields) (f : Field) (n : UInt32) : Fields := fs.set f (.uint n)

/-- The map with field `f` set to the signed `i`. -/
def setInt (fs : Fields) (f : Field) (i : Int32) : Fields := fs.set f (.int i)

/-- The map with field `f` set to the text `s`. -/
def setText (fs : Fields) (f : Field) (s : String) : Fields := fs.set f (.text s)

/-- The map of a list of settings, later ones winning. -/
def ofList (l : List (Field × Value)) : Fields := l.foldl (fun fs p => fs.set p.1 p.2) empty

/-- True when field `f` is set. -/
def has (fs : Fields) (f : Field) : Bool := (fs.get? f).isSome

/-- Field `f` as an unsigned number, 0 when not set. -/
def uint (fs : Fields) (f : Field) : UInt32 := ((fs.get? f).map Value.asUInt).getD 0

/-- Field `f` as a signed number, 0 when not set. -/
def int (fs : Fields) (f : Field) : Int32 := ((fs.get? f).map Value.asInt).getD 0

/-- Field `f` as a text, empty when not set. -/
def text (fs : Fields) (f : Field) : String := ((fs.get? f).map Value.asText).getD ""

/-- The set fields with their values, in field order. -/
def toList (fs : Fields) : List (Field × Value) :=
  Field.all.filterMap fun f => (fs.get? f).map (f, ·)

/-- The number of set fields. -/
def size (fs : Fields) : Nat := fs.toList.length

/-- The set fields as `name=value` pairs separated by single spaces, in field order. -/
def render (fs : Fields) : String :=
  " ".intercalate (fs.toList.map fun p => p.1.name ++ "=" ++ p.2.render)

@[simp] theorem get?_empty (f : Field) : empty.get? f = none := rfl

@[simp] theorem get?_set (fs : Fields) (f g : Field) (v : Value) :
    (fs.set f v).get? g = if g = f then some v else fs.get? g := rfl

@[simp] theorem uint_set_uint (fs : Fields) (f : Field) (n : UInt32) :
    (fs.setUInt f n).uint f = n := by
  simp [uint, setUInt, Value.asUInt]

/-- Two maps with the same lookups are equal. -/
@[ext] theorem ext {a b : Fields} (h : ∀ f, a.get? f = b.get? f) : a = b := by
  cases a; cases b; congr; funext f; exact h f

end Fields

end C166Codec
