import C166Codec.Source.Number
import C166Codec.Machine.Register
import C166Codec.Machine.Condition
import C166Codec.Machine.ShortAddress
/-!
# Operands

An operand of an instruction, as written in assembly text:

| form | written |
|---|---|
| register | `r5`, `rl2`, `PSW` |
| indirect | `[r3]`, `[r3+]`, `[-r3]`, `[r3 + #12h]` |
| immediate | `#0Fh`, `#7` |
| direct address | `0FE12h` |
| bit address | `r5.3`, `PSW.11`, `0FD10h.2` |
| condition | `cc_Z` |
| displacement | `+05h`, `-2` |
| label | `loop` |

`Operand.parse` tries the forms in this order: text starting with `[` is an indirect form or
an error; then a register name, a condition, an immediate, a bit address, a displacement, a
number (a direct address), a label. A name that reads as a hexadecimal number (`each`) is
therefore a direct address, never a label.

The word of a bit address must be bit-addressable in the ordinary or in the extended window;
which short address it gets depends on the window in force where it is used.
-/

namespace C166Codec

/-- The word part of a bit address. -/
inductive BitWord where
  /-- A word register or a bit-addressable special function register. -/
  | register (r : Register)
  /-- A bit-addressable word address. -/
  | address (a : Nat)
  deriving DecidableEq, Repr

/-- The forms an operand can take. -/
inductive OperandForm where
  | register (r : Register)
  | indirect (r : Fin 16)
  | postInc (r : Fin 16)
  | preDec (r : Fin 16)
  | indexed (r : Fin 16) (offset : Nat)
  | immediate (value : Nat) (wide : Bool)
  | direct (value : Nat) (wide : Bool)
  | bitAddr (word : BitWord) (bit : Fin 16)
  | condition (c : Condition)
  /-- A word displacement. -/
  | relative (value : Int)
  /-- A label, in lower case. -/
  | label (name : String)
  deriving DecidableEq, Repr

/-- An operand and the text it was read from. -/
structure Operand where
  form : OperandForm
  raw : String
  deriving DecidableEq, Repr

namespace Operand

/-- The name of the operand's form. -/
def kindName (o : Operand) : String :=
  match o.form with
  | .register _ => "register"
  | .indirect _ => "indirect"
  | .postInc _ => "post-increment"
  | .preDec _ => "pre-decrement"
  | .indexed .. => "indirect+offset"
  | .immediate .. => "immediate"
  | .direct .. => "direct"
  | .bitAddr .. => "bit address"
  | .condition _ => "condition"
  | .relative _ => "relative"
  | .label _ => "label"

/-- The operand as written, or its form's name when no text was kept. -/
def render (o : Operand) : String := if o.raw = "" then o.kindName else o.raw

/-- The register an operand names: the register, the index of an indirect form, or the word
register of a bit address. -/
def register? (o : Operand) : Option Register :=
  match o.form with
  | .register r => some r
  | .indirect r | .postInc r | .preDec r | .indexed r _ => some (.word r)
  | .bitAddr (.register r) _ => some r
  | _ => none

/-- The number of the register an operand names, 0 when it names none. -/
def regNum (o : Operand) : Nat := (o.register?.map Register.num).getD 0

/-- The number an operand carries: an immediate, an address, a displacement, an offset, or the
word address of a bit address; 0 for the other forms. -/
def value (o : Operand) : Int :=
  match o.form with
  | .immediate v _ | .direct v _ | .indexed _ v | .bitAddr (.address v) _ => v
  | .relative v => v
  | _ => 0

/-- True for an immediate or a direct address written with more than two digits. -/
def wide (o : Operand) : Bool :=
  match o.form with
  | .immediate _ w | .direct _ w => w
  | _ => false

/-- The bit number of a bit address, 0 for other forms. -/
def bit (o : Operand) : Nat :=
  match o.form with
  | .bitAddr _ b => b.val
  | _ => 0

/-- The condition of a condition operand, `cc_UC` for other forms. -/
def condition (o : Operand) : Condition :=
  match o.form with
  | .condition c => c
  | _ => Condition.always

/-- The label of a label operand, empty for other forms. -/
def label (o : Operand) : String :=
  match o.form with
  | .label l => l
  | _ => ""

/-- True for a label operand. -/
def isLabel (o : Operand) : Bool :=
  match o.form with
  | .label _ => true
  | _ => false

/-! ## §1. Patterns -/

open Lexeme

/-- `[ rN ]`: the register token. -/
def indirectPattern? (cs : List Char) : Option (List Char) := do
  let cs ← expect '[' cs
  let (reg, cs) ← bankToken? (skipGaps cs)
  let cs ← expect ']' (skipGaps cs)
  if cs.isEmpty then some reg else none

/-- `[ rN + ]`: the register token. -/
def postIncPattern? (cs : List Char) : Option (List Char) := do
  let cs ← expect '[' cs
  let (reg, cs) ← bankToken? (skipGaps cs)
  let cs ← expect '+' (skipGaps cs)
  let cs ← expect ']' (skipGaps cs)
  if cs.isEmpty then some reg else none

/-- `[ - rN ]`: the register token. -/
def preDecPattern? (cs : List Char) : Option (List Char) := do
  let cs ← expect '[' cs
  let cs ← expect '-' (skipGaps cs)
  let (reg, cs) ← bankToken? (skipGaps cs)
  let cs ← expect ']' (skipGaps cs)
  if cs.isEmpty then some reg else none

/-- `[ rN + # number ]`: the register token and the number. -/
def indexedPattern? (cs : List Char) : Option (List Char × List Char) := do
  let cs ← expect '[' cs
  let (reg, cs) ← bankToken? (skipGaps cs)
  let cs ← expect '+' (skipGaps cs)
  let cs ← expect '#' (skipGaps cs)
  let cs := skipGaps cs
  let num := cs.takeWhile fun c => !Text.isGap c && c != ']'
  let cs ← expect ']' (skipGaps (cs.dropWhile fun c => !Text.isGap c && c != ']'))
  if cs.isEmpty && isNumber num then some (reg, num) else none

/-- `cc_` (either case) and one or more letters. -/
def isConditionToken : List Char → Bool
  | a :: b :: '_' :: rest =>
    Text.sameLetter a 'c' && Text.sameLetter b 'c' && !rest.isEmpty && rest.all Text.isFoldLetter
  | _ => false

/-- `# value`: the value's text, which holds no gap. -/
def immediatePattern? : List Char → Option (List Char)
  | '#' :: rest =>
    let body := skipGaps rest
    if !body.isEmpty && body.all (fun c => !Text.isGap c) then some body else none
  | _ => none

/-- `word.bit`: the word (a name, or a hexadecimal literal starting with a decimal digit) and
one or two bit digits. -/
def bitAddrPattern? (cs : List Char) : Option (List Char × List Char) :=
  let word := cs.takeWhile (· != '.')
  match cs.dropWhile (· != '.') with
  | '.' :: ds =>
    let wordOk := isName word || (isHex word && (word.head?.map Text.isDigit).getD false)
    if (ds.length = 1 || ds.length = 2) && ds.all Text.isDigit && wordOk then some (word, ds)
    else none
  | _ => none

/-- `+ number` or `- number`: whether negative, and the number. -/
def relativePattern? : List Char → Option (Bool × List Char)
  | c :: rest =>
    if c = '+' || c = '-' then
      let num := skipGaps rest
      if isNumber num then some (c = '-', num) else none
    else none
  | [] => none

/-! ## §2. Reading -/

/-- A word that is bit-addressable in the ordinary or in the extended window. -/
def bitAddressable (a : Nat) : Bool :=
  (ShortAddress.bitShort? a.toUInt16 false).isSome || (ShortAddress.bitShort? a.toUInt16 true).isSome

/-- The index register of an indirect form, which must be a word register. -/
def indexRegister (reg : List Char) : Except SyntaxFault (Fin 16) :=
  match Register.parseGeneral? (String.ofList reg) with
  | some (.word n) => .ok n
  | _ => .error (.notWordRegister (String.ofList reg))

/-- An operand starting with `[`. -/
def parseIndirect (t : String) (cs : List Char) : Except SyntaxFault OperandForm :=
  match indexedPattern? cs with
  | some (reg, num) => do
    let lit ← Literal.parse (String.ofList num)
    let r ← indexRegister reg
    pure (.indexed r lit.value)
  | none =>
    match indirectPattern? cs with
    | some reg => return .indirect (← indexRegister reg)
    | none =>
      match postIncPattern? cs with
      | some reg => return .postInc (← indexRegister reg)
      | none =>
        match preDecPattern? cs with
        | some reg => return .preDec (← indexRegister reg)
        | none => .error (.badIndirect t)

/-- The word of a bit address. -/
def parseBitWord (word : String) : Except SyntaxFault BitWord :=
  match Register.lookup? word with
  | some (.byte _) => .error (.byteRegisterBit word)
  | some r =>
    if r.isGeneral || bitAddressable r.address.toNat then .ok (.register r)
    else .error (.notBitAddressable word)
  | none => do
    let lit ← Literal.parse word
    if lit.value > 0xFFFF || !bitAddressable lit.value then .error (.notBitAddressableAddress word)
    else pure (.address lit.value)

/-- A bit address: its word, then a bit number up to 15. -/
def parseBitAddr (word digits : List Char) : Except SyntaxFault OperandForm := do
  let w ← parseBitWord (String.ofList word)
  let b := digits.foldl (fun n c => 10 * n + (c.toNat - 48)) 0
  if h : b < 16 then pure (.bitAddr w ⟨b, h⟩)
  else .error (.bitNumberRange (String.ofList digits))

/-- The form of an operand that does not start with `[`, by the order of the forms. -/
def parsePlain (t : String) (cs : List Char) : Except SyntaxFault OperandForm :=
  match Register.lookup? t with
  | some r => .ok (.register r)
  | none =>
    if isConditionToken cs then
      match Condition.parse? t with
      | some c => .ok (.condition c)
      | none => .error (.unknownCondition t)
    else
      match immediatePattern? cs with
      | some body => do
        let lit ← Literal.parse (String.ofList body)
        pure (.immediate lit.value lit.wide)
      | none =>
        match bitAddrPattern? cs with
        | some (word, digits) => parseBitAddr word digits
        | none =>
          match relativePattern? cs with
          | some (neg, num) => do
            let lit ← Literal.parse (String.ofList num)
            pure (.relative (if neg then -(lit.value : Int) else lit.value))
          | none =>
            if isNumber cs then do
              let lit ← Literal.parse t
              pure (.direct lit.value lit.wide)
            else if isName cs then .ok (.label (Text.lower t))
            else .error (.unknownOperandFormat t)

/-- An operand, with blanks at both ends. -/
def parse (s : String) : Except SyntaxFault Operand :=
  let t := Text.trim s
  let cs := t.toList
  match cs with
  | [] => .error .emptyOperand
  | c :: _ =>
    let form := if c = '[' then parseIndirect t cs else parsePlain t cs
    form.map (⟨·, t⟩)

end Operand

end C166Codec
