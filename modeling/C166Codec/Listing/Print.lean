import C166Codec.Listing.Flow
import C166Codec.Listing.Data
import C166Codec.Listing.Window
import C166Codec.Instruction.Render
/-!
# Listings

A listing writes a buffer as assembly text, one line per instruction (`    mov r1, r2`) and
`db` lines for everything else. It walks the buffer from offset 0: at a code instruction it
writes that instruction and goes on after it; elsewhere it writes the bytes up to the next
code instruction as data. Instructions that start inside one already written are not
written.

A label line `loc_1234:` or `sub_1234:` stands before every written instruction that a
branch targets, and the operand of a branch to it names the label. Short addresses name the
extended registers inside an ext window.
-/

namespace C166Codec.Listing

/-- A part of the listing. -/
inductive Piece where
  /-- Bytes written as data, from offset `start`. -/
  | data (start : Nat) (bytes : List UInt8)
  /-- An instruction written as code, at offset `start`. -/
  | code (start : Nat) (i : Instruction)

/-- The first offset from `start` on where code begins, or the end. -/
def nextCode (isCode : Nat → Bool) (n start : Nat) : Nat :=
  if start < n then
    if isCode start then start else nextCode isCode n (start + 1)
  else start
termination_by n - start

theorem le_nextCode (isCode : Nat → Bool) (n start : Nat) : start ≤ nextCode isCode n start := by
  induction start using nextCode.induct isCode n with
  | case1 s h hc =>
    have stop : nextCode isCode n s = s := by rw [nextCode, if_pos h, if_pos hc]
    exact Nat.le_of_eq stop.symm
  | case2 s h hc ih => rw [nextCode, if_pos h, if_neg hc]; omega
  | case3 s h =>
    have stop : nextCode isCode n s = s := by rw [nextCode, if_neg h]
    exact Nat.le_of_eq stop.symm

/-- The parts of a listing from offset `pc` on. -/
def plan (code : List UInt8) (codeAt : Nat → Option Instruction) (pc : Nat) : List Piece :=
  if pc < code.length then
    match codeAt pc with
    | some i =>
      have := Instruction.size_pos i
      .code pc i :: plan code codeAt (pc + i.size)
    | none =>
      let e := nextCode (fun o => (codeAt o).isSome) code.length (pc + 1)
      have := le_nextCode (fun o => (codeAt o).isSome) code.length (pc + 1)
      .data pc ((code.drop pc).take (e - pc)) :: plan code codeAt e
  else []
termination_by code.length - pc

/-- The marks after one piece: an instruction marks its start. -/
def markStart (a : Array Bool) : Piece → Array Bool
  | .code pc _ => a.setIfInBounds pc true
  | .data .. => a

/-- The offsets where the instructions of the pieces start. -/
def starts (n : Nat) (pieces : List Piece) : Array Bool :=
  pieces.foldl markStart (Array.replicate n false)

/-- Off code, the search for code goes on from the next offset. -/
theorem nextCode_of_not_code {isCode : Nat → Bool} {n start : Nat} (h : start < n)
    (hc : isCode start = false) : nextCode isCode n start = nextCode isCode n (start + 1) := by
  rw [nextCode, if_pos h, if_neg (by simp [hc])]

/-- The offsets where written instructions start, marked from offset `pc` on by a second walk
over the code offsets, the way a listing renders them: a code offset is marked and the walk
goes on after its instruction; any other offset goes on at the next code offset. -/
def renderStarts (codeAt : Nat → Option Instruction) (n pc : Nat) (marks : Array Bool) :
    Array Bool :=
  if h : pc < n then
    match hc : codeAt pc with
    | some i =>
      have := Instruction.size_pos i
      renderStarts codeAt n (pc + i.size) (marks.setIfInBounds pc true)
    | none =>
      have := @nextCode_of_not_code (fun o => (codeAt o).isSome) n pc h (by simp [hc]) ▸
        le_nextCode (fun o => (codeAt o).isSome) n (pc + 1)
      renderStarts codeAt n (nextCode (fun o => (codeAt o).isSome) n pc) marks
  else marks
termination_by n - pc

/-- The operand texts of an instruction, with a branch's target named by its label. -/
def substitute (i : Instruction) (ops : List String) (labelAt : Nat → Option LabelKind)
    (base : UInt32) : List String :=
  match i.branch.target with
  | some t =>
    if base ≤ t then
      match labelAt (t - base).toNat with
      | some k =>
        (i.descriptor.shape.slots.zip ops).map fun p =>
          if p.1.kind = .rel ∨ p.1.kind = .caddr then k.name t else p.2
      | none => ops
    else ops
  | none => ops

/-- What printing carries from one part to the next: the next string number and the ext
window. -/
structure PrintState where
  counter : Nat
  window : ListingWindow

/-- The text of one part. -/
def printPiece (labelAt : Nat → Option LabelKind) (base : UInt32) (st : PrintState) :
    Piece → String × PrintState
  | .data _ bytes =>
    let (text, c) := dataLines bytes st.counter
    (text, ⟨c, st.window.reset⟩)
  | .code pc i =>
    let labelLine := match labelAt pc with
      | some k => k.name (base + pc.toUInt32) ++ ":\n"
      | none => ""
    let ops := substitute i (i.operandTexts st.window.active) labelAt base
    (labelLine ++ "    " ++ Render.line i.mnemonic ops ++ "\n", { st with window := st.window.step i })

/-- The text of all parts. -/
def printPieces (labelAt : Nat → Option LabelKind) (base : UInt32) :
    PrintState → List Piece → String
  | _, [] => ""
  | st, p :: rest =>
    let (text, st) := printPiece labelAt base st p
    text ++ printPieces labelAt base st rest

end C166Codec.Listing

namespace C166Codec

/-- How a buffer is listed. -/
structure ListingOptions where
  /-- The whole listing is in the extended window. -/
  extended : Bool := false
  /-- Every decodable instruction from offset 0 on is code, without flow analysis. -/
  linear : Bool := false

/-- The listing of a buffer loaded at `base`. -/
def disassemble (code : List UInt8) (base : UInt32) (opts : ListingOptions) : String :=
  if code.isEmpty then ""
  else
    let sw := Listing.sweep code base
    let (reached, labels) :=
      if opts.linear then
        (Listing.linearMarks sw 0 (Array.replicate sw.size false), Array.replicate sw.size none)
      else
        let fl := Listing.flow sw base
        (fl.reached, fl.labels)
    let codeAt (o : Nat) : Option Instruction :=
      if reached[o]?.getD false then Listing.instrAt sw o else none
    let pieces := Listing.plan code codeAt 0
    let written := Listing.renderStarts codeAt code.length 0 (Array.replicate code.length false)
    let labelAt (o : Nat) : Option Listing.LabelKind :=
      if written[o]?.getD false then labels[o]?.bind id else none
    Listing.printPieces labelAt base ⟨1, ⟨opts.extended, 0⟩⟩ pieces

end C166Codec
