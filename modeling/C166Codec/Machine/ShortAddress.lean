/-!
# Short addresses

An 8-bit short address in an instruction stands for a word of memory.

* A register short address below F0h names the word `FE00h + 2·s` (in an ext window
  `F000h + 2·s`); from F0h up it names the bank register `s - F0h`.
* A bit short address below 80h names a word of the bit-addressable RAM, `FD00h + 2·s`;
  from 80h to EFh a bit-addressable register, `FF00h + 2·(s - 80h)` (in an ext window
  `F100h + 2·(s - 80h)`); from F0h up a bank register.

`regShort?` and `bitShort?` go back from a word address to the short address that names it, in
the window chosen by `extended`; they are the inverses of `regAddress?` and `bitAddress?`.
-/

namespace C166Codec

/-- The region that a bit short address falls into. -/
inductive BitSpace where
  /-- The bit-addressable internal RAM, short addresses 00h to 7Fh. -/
  | ram
  /-- The bit-addressable registers, 80h to EFh. -/
  | sfr
  /-- The bank registers, F0h to FFh. -/
  | general
  deriving DecidableEq, Repr

namespace ShortAddress

/-- The region of a bit short address. -/
def bitSpace (s : UInt8) : BitSpace :=
  if s < 0x80 then .ram else if s < 0xF0 then .sfr else .general

/-- The first word of the register window. -/
def regBase (extended : Bool) : Nat := if extended then 0xF000 else 0xFE00

/-- The first word of the bit-addressable register window. -/
def bitBase (extended : Bool) : Nat := if extended then 0xF100 else 0xFF00

/-- The first word of the bit-addressable RAM. -/
def ramBitBase : Nat := 0xFD00

/-- The word that a bit short address below F0h names. -/
def bitAddress? (s : UInt8) (extended : Bool) : Option UInt16 :=
  match bitSpace s with
  | .ram => some (ramBitBase + 2 * s.toNat).toUInt16
  | .sfr => some (bitBase extended + 2 * (s.toNat % 0x80)).toUInt16
  | .general => none

/-- The bit short address that names a word, in the window chosen by `extended`. -/
def bitShort? (addr : UInt16) (extended : Bool) : Option UInt8 :=
  let a := addr.toNat
  let base := bitBase extended
  if a % 2 ≠ 0 then none
  else if ramBitBase ≤ a ∧ a < ramBitBase + 0x100 then some ((a - ramBitBase) / 2).toUInt8
  else if base ≤ a ∧ a < base + 0xE0 then some (0x80 + (a - base) / 2).toUInt8
  else none

/-- The word that a register short address below F0h names. -/
def regAddress? (s : UInt8) (extended : Bool) : Option UInt16 :=
  if s ≥ 0xF0 then none else some (regBase extended + 2 * s.toNat).toUInt16

/-- The register short address that names a word, in the window chosen by `extended`. -/
def regShort? (addr : UInt16) (extended : Bool) : Option UInt8 :=
  let a := addr.toNat
  let base := regBase extended
  if a % 2 ≠ 0 ∨ a < base ∨ a ≥ base + 0x1E0 then none
  else some ((a - base) / 2).toUInt8

example : bitAddress? 0x81 true = some 0xF102 ∧ bitShort? 0xF102 true = some 0x81 ∧
    regAddress? 0x09 false = some 0xFE12 ∧ regShort? 0xFE00 true = none := by decide

end ShortAddress

end C166Codec
