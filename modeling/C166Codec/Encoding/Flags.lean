/-!
# Opcode flags

Each opcode carries a set of flags that say what it does: arithmetic, logic, compare, move,
jump, call, return, trap, no operation, conditional branch, register operand, and system
control. A flag set is a 16-bit word, flag `i` in bit `i`; bits above the last flag are kept
and ignored.
-/

namespace C166Codec

/-- What an opcode does, one aspect per flag. -/
inductive Flag where
  | arith
  | logic
  | compare
  | move
  | jump
  | call
  | ret
  | trap
  | null
  /-- A branch that may fall through. -/
  | cond
  /-- At least one operand names a register. -/
  | reg
  /-- Power, watchdog and prefix instructions. -/
  | system
  deriving DecidableEq, Repr

namespace Flag

/-- Every flag, in bit order. -/
def all : List Flag :=
  [.arith, .logic, .compare, .move, .jump, .call, .ret, .trap, .null, .cond, .reg, .system]

/-- The bit that holds the flag. -/
def bit (f : Flag) : Nat := f.ctorIdx

/-- The flag's name. -/
def name : Flag → String
  | .arith => "arith"
  | .logic => "logic"
  | .compare => "compare"
  | .move => "move"
  | .jump => "jump"
  | .call => "call"
  | .ret => "return"
  | .trap => "trap"
  | .null => "null"
  | .cond => "cond"
  | .reg => "reg"
  | .system => "system"

end Flag

/-- A set of flags, flag `i` in bit `i`. -/
structure Flags where
  bits : UInt16
  deriving DecidableEq, Repr

namespace Flags

/-- The set of the listed flags. -/
def ofList (l : List Flag) : Flags := ⟨l.foldl (fun b f => b ||| ((1 : UInt16) <<< f.bit.toUInt16)) 0⟩

/-- The set with one more flag. -/
def insert (fs : Flags) (f : Flag) : Flags := ⟨fs.bits ||| ((1 : UInt16) <<< f.bit.toUInt16)⟩

/-- True when the flag is in the set. -/
def has (fs : Flags) (f : Flag) : Bool := fs.bits &&& ((1 : UInt16) <<< f.bit.toUInt16) != 0

/-- True for an opcode that transfers control: a jump, call, return or trap. -/
def isBranch (fs : Flags) : Bool := fs.has .jump || fs.has .call || fs.has .ret || fs.has .trap

/-- The names of the flags in the set, in bit order, joined by `|`; `none` for no flag. -/
def render (fs : Flags) : String :=
  match Flag.all.filter fs.has with
  | [] => "none"
  | l => "|".intercalate (l.map Flag.name)

example : (ofList [.arith, .reg]).bits = 1025 ∧ (ofList [.arith, .reg]).render = "arith|reg" := by
  decide

end Flags

end C166Codec
