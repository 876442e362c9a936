import C166Codec.Encoding.Opcode
import C166Codec.Machine.Condition
/-!
# Decoded instructions and their branches

An instruction is an opcode's descriptor with the field map decoded from its bytes, at an
address. Its branch facts say how it leaves the straight-line path:

* the kind: call, jump, return or trap, chosen in that order from the opcode's flags;
* the condition, when the instruction has a condition field; a branch is conditional when that
  condition is not `cc_UC`, or, without a condition field, when the opcode carries the
  `cond` flag (the bit branches `jb`, `jnb`, ...);
* the static target, when the fields fix it: `next + 2·rel` for a displacement, the far
  address `segment·10000h + offset`, the near address in the current 64K segment, or
  `4·trap` for a trap. The arithmetic is on 32-bit words and wraps.

An instruction is terminal when execution never goes on at the next one: a return, or a jump
that is not conditional.
-/

namespace C166Codec

/-- How an instruction leaves the straight-line path. -/
inductive BranchKind where
  | none
  | jump
  | call
  | ret
  | trap
  deriving DecidableEq, Repr

/-- The name of a branch kind. -/
def BranchKind.name : BranchKind → String
  | .none => "none"
  | .jump => "jump"
  | .call => "call"
  | .ret => "return"
  | .trap => "trap"

/-- The control-flow facts of one instruction. -/
structure Branch where
  kind : BranchKind
  /-- The absolute destination, when the fields fix it. -/
  target : Option UInt32
  /-- The word displacement of a PC-relative branch. -/
  relative : Option Int32
  /-- True when the branch may fall through. -/
  conditional : Bool
  /-- The condition code, when the instruction has a condition field. -/
  condition : Option Condition
  deriving DecidableEq, Repr

/-- The facts of an instruction that does not branch. -/
def Branch.none : Branch := ⟨.none, Option.none, Option.none, false, Option.none⟩

/-- One decoded instruction at an address. -/
structure Instruction where
  address : UInt32
  descriptor : Descriptor
  /-- Exactly the instruction's bytes, `descriptor.length` of them. -/
  bytes : List UInt8
  fields : Fields

namespace Instruction

/-- The length in bytes. -/
def size (i : Instruction) : Nat := i.descriptor.length

/-- An instruction's size is 2 or 4, never 0. -/
theorem size_pos (i : Instruction) : 0 < i.size := by
  unfold Instruction.size Descriptor.length
  rcases Layout.length_eq i.descriptor.layout with h | h <;> omega

/-- The mnemonic: the one a sub-opcode chose, or the opcode's. -/
def mnemonic (i : Instruction) : String :=
  if i.fields.has .mnemonic then i.fields.text .mnemonic else i.descriptor.mnemonic

/-- The kind of branch by the opcode's flags: call, then jump, then return, then trap. -/
def branchKind (fl : Flags) : BranchKind :=
  if fl.has .call then .call
  else if fl.has .jump then .jump
  else if fl.has .ret then .ret
  else if fl.has .trap then .trap
  else .none

/-- The static target of a branch at `pc` of length `len`, when its fields fix one. -/
def staticTarget (fs : Fields) (pc : UInt32) (len : Nat) : Option UInt32 :=
  let next := pc + len.toUInt32
  if fs.has .relative0 then some (next + (fs.int .relative0).toUInt32 * 2)
  else if fs.has .address1 then some (fs.uint .address1)
  else if fs.has .address0 then some ((pc &&& ~~~0xFFFF) ||| fs.uint .address0)
  else if fs.has .trap0 then some (fs.uint .trap0 * 4)
  else Option.none

/-- The branch facts of an instruction. -/
def branch (i : Instruction) : Branch :=
  let fl := i.descriptor.flags
  let fs := i.fields
  match branchKind fl with
  | .none => Branch.none
  | kind =>
    let cond := if fs.has .condition0 then some (Condition.ofNat (fs.uint .condition0).toNat)
      else Option.none
    { kind := kind
      target := staticTarget fs i.address i.size
      relative := if fs.has .relative0 then some (fs.int .relative0) else Option.none
      conditional := match cond with
        | some c => !c.isAlways
        | Option.none => fl.has .cond
      condition := cond }

/-- True when execution never goes on at the next instruction. -/
def terminal (i : Instruction) : Bool :=
  match i.branch.kind with
  | .ret => true
  | .jump => !i.branch.conditional
  | _ => false

end Instruction

end C166Codec
