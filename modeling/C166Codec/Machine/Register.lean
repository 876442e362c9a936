import C166Codec.Machine.SpecialRegister
import C166Codec.Text.Hex
/-!
# Registers

A register operand is a word register `r0`..`r15` of the current bank, a byte register
`rl0`..`rl7`, `rh0`..`rh7` (the low and high halves of `r0`..`r7`), or a special function
register.

Byte registers are numbered by the byte they occupy: `rl0 = 0`, `rh0 = 1`, `rl1 = 2`, and so
on, so `rln = 2n` and `rhn = 2n + 1`.

`Register.parseGeneral?` reads the bank registers in any case; `Register.lookup?` also reads
the names of special function registers.
-/

namespace C166Codec

/-- The access width of a register or memory operand. -/
inductive Width where
  | none
  | byte
  | word
  deriving DecidableEq, Repr

/-- The number of bytes a width covers. -/
def Width.bytes : Width → Nat
  | .none => 0
  | .byte => 1
  | .word => 2

/-- The name of a width. -/
def Width.name : Width → String
  | .none => "none"
  | .byte => "byte"
  | .word => "word"

/-- A register operand. -/
inductive Register where
  /-- A word register of the current bank. -/
  | word (n : Fin 16)
  /-- A byte register of the current bank, numbered by the byte it occupies. -/
  | byte (n : Fin 16)
  /-- A special function register, ordinary or extended. -/
  | special (sfr : SpecialRegister)
  deriving DecidableEq, Repr

namespace Register

/-- The name of word register `n` (the low nibble of `n` counts). -/
def wordName (n : Nat) : String := "r" ++ toString (n % 16)

/-- The name of byte register `n` (the low nibble of `n` counts): even numbers are low bytes. -/
def byteName (n : Nat) : String :=
  let m := n % 16
  (if m % 2 = 0 then "rl" else "rh") ++ toString (m / 2)

/-- True for the registers of the bank. -/
def isGeneral : Register → Bool
  | .word _ | .byte _ => true
  | .special _ => false

/-- The natural access width; special function registers serve either width. -/
def width : Register → Width
  | .word _ => .word
  | .byte _ => .byte
  | .special _ => .none

/-- The bank number of a bank register, 0 for a special function register. -/
def num : Register → Nat
  | .word n | .byte n => n.val
  | .special _ => 0

/-- The address of a special function register, 0 for a bank register. -/
def address : Register → UInt16
  | .special s => s.address
  | _ => 0

/-- The name of a special function register, empty for a bank register. -/
def sfrName : Register → String
  | .special s => s.name
  | _ => ""

/-- The written name: `r5`, `rh2`, or the special function register's name (its address
`FE12h` when it has none). -/
def render : Register → String
  | .word n => wordName n.val
  | .byte n => byteName n.val
  | .special s => if s.name = "" then Text.upperHex 4 s.address.toNat ++ "h" else s.name

/-- The value of an ASCII decimal digit. -/
def digitValue? (c : Char) : Option Nat :=
  if '0' ≤ c && c ≤ '9' then some (c.toNat - 48) else none

/-- The number written after `r`, `rl` or `rh`: one or two characters that read as a
non-negative decimal, with an optional sign before a single digit; two digits never start
with `0`. -/
def bankNumber? : List Char → Option Nat
  | [d] => digitValue? d
  | ['0', _] => none
  | ['+', d] => digitValue? d
  | ['-', d] => (digitValue? d).filter (· = 0)
  | [d, e] => do
    let a ← digitValue? d
    let b ← digitValue? e
    pure (10 * a + b)
  | _ => none

/-- A bank register name in any case, with blanks at both ends: `r0`..`r15`,
`rl0`..`rl7`, `rh0`..`rh7`. -/
def parseGeneral? (s : String) : Option Register :=
  match (Text.lower (Text.trim s)).toList with
  | 'r' :: 'l' :: ds => (bankNumber? ds).bind fun n =>
    if h : n < 8 then some (.byte ⟨2 * n, by omega⟩) else none
  | 'r' :: 'h' :: ds => (bankNumber? ds).bind fun n =>
    if h : n < 8 then some (.byte ⟨2 * n + 1, by omega⟩) else none
  | 'r' :: ds => (bankNumber? ds).bind fun n =>
    if h : n < 16 then some (.word ⟨n, h⟩) else none
  | _ => none

/-- A bank register, or else a special function register, by name. -/
def lookup? (s : String) : Option Register :=
  match parseGeneral? s with
  | some r => some r
  | none => (SpecialRegister.named? s).map .special

example : parseGeneral? " R15 " = some (.word 15) ∧ parseGeneral? "rh7" = some (.byte 15) ∧
    parseGeneral? "r16" = none ∧ parseGeneral? "r05" = none ∧ parseGeneral? "r+5" = some (.word 5) := by
  decide +kernel

end Register

end C166Codec
