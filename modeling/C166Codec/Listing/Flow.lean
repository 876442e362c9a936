import C166Codec.Instruction.Decode
/-!
# Code flow in a buffer

A listing first decodes an instruction at every even offset of the buffer (the sweep). Which
of them are code is then decided in one of two ways.

* By flow: code is what is reached from offset 0. An instruction that is not terminal reaches
  the one after it; a jump or call with a static target inside the buffer reaches its
  target. Odd offsets are rounded down to the word.
* Linearly: from offset 0, every decodable instruction is code and the walk goes on after it;
  a byte that starts no instruction is skipped.

Targets of the jumps and calls reached by flow get labels: a subroutine label when some call
reaches it, else a location label.
-/

namespace C166Codec.Listing

/-- The kind of a label: a location is a jump target, a subroutine a call target. -/
inductive LabelKind where
  | location
  | subroutine
  deriving DecidableEq, Repr

/-- The label's name at an absolute address: `loc_1234` or `sub_1234`. -/
def LabelKind.name (k : LabelKind) (addr : UInt32) : String :=
  (match k with
    | .location => "loc_"
    | .subroutine => "sub_") ++ Text.upperHex 4 addr.toNat

/-- The instruction decoded at every even offset that starts one, for a buffer loaded at
`base`; `none` at odd offsets and where decoding fails. -/
def sweep (code : List UInt8) (base : UInt32) : Array (Option Instruction) :=
  ((List.range code.length).map fun pc =>
    if pc % 2 = 0 ∧ pc + 1 < code.length then
      (Instruction.decode (code.drop pc) (base + pc.toUInt32)).toOption
    else none).toArray

/-- The instruction of the sweep at an offset. -/
def instrAt (sw : Array (Option Instruction)) (off : Nat) : Option Instruction :=
  (sw[off]?).bind id

/-- The offsets that linear marking makes code, from offset `pc` on. -/
def linearMarks (sw : Array (Option Instruction)) (pc : Nat) (marks : Array Bool) : Array Bool :=
  if pc < sw.size then
    match instrAt sw pc with
    | some i =>
      have := Instruction.size_pos i
      linearMarks sw (pc + i.size) (marks.setIfInBounds pc true)
    | none => linearMarks sw (pc + 1) marks
  else marks
termination_by sw.size - pc

/-- What the flow search has found: the offsets reached and the labels. -/
structure Flow where
  reached : Array Bool
  labels : Array (Option LabelKind)

/-- A worklist push: the offset rounded down to the word, once only. -/
def push (off : Nat) (queue seen : List Nat) : List Nat × List Nat :=
  let a := off - off % 2
  if seen.contains a then (queue, seen) else (queue ++ [a], a :: seen)

/-- The label a branch leaves at its target: a call's label wins over a jump's. -/
def markLabel (labels : Array (Option LabelKind)) (tgt : Nat) (kind : BranchKind) :
    Array (Option LabelKind) :=
  if kind = .call then labels.setIfInBounds tgt (some .subroutine)
  else if (labels[tgt]?.bind id).isNone then labels.setIfInBounds tgt (some .location)
  else labels

/-- The worklist search, taking the offsets of `queue` in order, for at most `fuel` steps. -/
def explore (sw : Array (Option Instruction)) (base : UInt32) :
    Nat → List Nat → List Nat → Flow → Flow
  | 0, _, _, fl => fl
  | _ + 1, [], _, fl => fl
  | fuel + 1, off :: queue, seen, fl =>
    match instrAt sw off with
    | none => explore sw base fuel queue seen fl
    | some i =>
      if fl.reached[off]?.getD false then explore sw base fuel queue seen fl
      else
        let fl := { fl with reached := fl.reached.setIfInBounds off true }
        let (queue, seen) := if i.terminal then (queue, seen) else push (off + i.size) queue seen
        let b := i.branch
        match b.target with
        | some t =>
          if (b.kind = .jump ∨ b.kind = .call) ∧ base ≤ t ∧ (t - base).toNat < sw.size then
            let tgt := (t - base).toNat
            let (queue, seen) := push tgt queue seen
            explore sw base fuel queue seen { fl with labels := markLabel fl.labels tgt b.kind }
          else explore sw base fuel queue seen fl
        | none => explore sw base fuel queue seen fl

/-- The flow search from offset 0. Every offset enters the worklist at most once and all of
them lie below `sw.size + 4`, so `sw.size + 4` steps finish it. -/
def flow (sw : Array (Option Instruction)) (base : UInt32) : Flow :=
  explore sw base (sw.size + 4) [0] [0]
    ⟨Array.replicate sw.size false, Array.replicate sw.size none⟩

end C166Codec.Listing
