import C166Codec.Source.Select
import C166Codec.Source.Data
import C166Codec.Source.Window
/-!
# Assembling a program

A program is assembled in two passes over its lines, from a base address.

1. Every line is parsed first; the first line that cannot be parsed stops assembly before any
   label is bound.
2. The sizing pass walks the lines in order, binds each label to the current address, and
   computes each directive's size and each instruction's encoding in a lax context (a label
   not yet defined stands for a placeholder). A label defined twice stops it.
3. The emitting pass encodes every line again with all labels known, and the bytes follow
   each other.

Addresses are 32-bit words and wrap. The ext window is followed in both passes; a directive
closes it. Each line's size in the second pass equals its size in the first; if it did not,
assembly would stop with `AssemblyFailure.sizeChanged`.
-/

namespace C166Codec

/-- What a line contributes to a program. -/
inductive Item where
  | label (name : String)
  | directive (d : Directive) (args : List String)
  | instruction (mnemonic : String) (operands : List Operand)
  deriving Repr

/-- An item with the number and text of its line. -/
structure Node where
  line : Nat
  text : String
  item : Item
  deriving Repr

/-- Why a program could not be assembled. -/
inductive AssemblyFailure where
  /-- A line could not be parsed or encoded. -/
  | line (err : LineError)
  /-- A line's size differed between the passes. -/
  | sizeChanged (line : Nat)
  deriving Repr

namespace AssemblyFailure

/-- The category of the failure. -/
def errorClass : AssemblyFailure → ErrorClass
  | .line e => e.err.errorClass
  | .sizeChanged _ => .fault

/-- The text of the failure. -/
def message : AssemblyFailure → String
  | .line e => e.message
  | .sizeChanged n => "assembler: line " ++ toString n ++ " changed size between passes"

end AssemblyFailure

/-- The result of assembling: the bytes or the failure, and the labels bound by then. -/
structure Assembly where
  result : Except AssemblyFailure (List UInt8)
  /-- The labels in the order they were bound. -/
  labels : List (String × UInt32)
  deriving Repr

namespace Program

/-- The items of a parsed line: its label first, then its directive or instruction. -/
def items (st : Statement) : List Item :=
  let label := match st.label with
    | some l => [Item.label l]
    | none => []
  let rest := match st.action with
    | .none => []
    | .directive d args => [Item.directive d args]
    | .instruction mn ops => [Item.instruction mn ops]
  label ++ rest

/-- A line's text as it is reported: without trailing carriage returns. -/
def lineText (line : List Char) : String :=
  String.ofList (line.reverse.dropWhile (· = '\r')).reverse

/-- The nodes of a list of lines numbered from `n`, or the first line that cannot be parsed. -/
def parseLines (n : Nat) : List (List Char) → Except LineError (List Node)
  | [] => .ok []
  | l :: rest =>
    let text := lineText l
    match Statement.parse l with
    | .error e => .error ⟨n, text, e⟩
    | .ok st => (parseLines (n + 1) rest).map fun ns => (items st).map (⟨n, text, ·⟩) ++ ns

/-- The sizing pass from address `pc`: the labels and the size of every node, or the first
failing line with the labels bound before it. -/
def sizes (pc : UInt32) (labels : List (String × UInt32)) (w : SourceWindow) :
    List Node → Except (LineError × List (String × UInt32)) (List (String × UInt32) × List Nat)
  | [] => .ok (labels, [])
  | n :: rest =>
    match n.item with
    | .label l =>
      if (labels.lookup l).isSome then
        .error (⟨n.line, n.text, .syntaxFault (.duplicateLabel l)⟩, labels)
      else (sizes pc (labels ++ [(l, pc)]) w rest).map fun r => (r.1, 0 :: r.2)
    | .directive d args =>
      match d.size args pc with
      | .error f => .error (⟨n.line, n.text, .syntaxFault f⟩, labels)
      | .ok s => (sizes (pc + s.toUInt32) labels w.close rest).map fun r => (r.1, s :: r.2)
    | .instruction mn ops =>
      match encodeIn mn ops ⟨pc, labels, true, w.active⟩ with
      | .error e => .error (⟨n.line, n.text, e⟩, labels)
      | .ok b =>
        (sizes (pc + b.length.toUInt32) labels (w.step mn ops) rest).map fun r =>
          (r.1, b.length :: r.2)

/-- The emitting pass from address `pc`, with every label known and the sizes of the first
pass. -/
def emit (pc : UInt32) (labels : List (String × UInt32)) (w : SourceWindow) :
    List Node → List Nat → Except AssemblyFailure (List UInt8)
  | n :: rest, s :: ss =>
    match n.item with
    | .label _ => emit pc labels w rest ss
    | .directive d args =>
      match d.generate args pc labels with
      | .error e => .error (.line ⟨n.line, n.text, e⟩)
      | .ok b =>
        if b.length ≠ s then .error (.sizeChanged n.line)
        else (emit (pc + s.toUInt32) labels w.close rest ss).map (b ++ ·)
    | .instruction mn ops =>
      match encodeIn mn ops ⟨pc, labels, false, w.active⟩ with
      | .error e => .error (.line ⟨n.line, n.text, e⟩)
      | .ok b =>
        if b.length ≠ s then .error (.sizeChanged n.line)
        else (emit (pc + s.toUInt32) labels (w.step mn ops) rest ss).map (b ++ ·)
  | _, _ => .ok []

end Program

/-- Assembles a source text loaded at address `base`. -/
def assemble (src : String) (base : UInt32) : Assembly :=
  match Program.parseLines 1 (Statement.lines src.toList) with
  | .error e => ⟨.error (.line e), []⟩
  | .ok nodes =>
    match Program.sizes base [] {} nodes with
    | .error (e, labels) => ⟨.error (.line e), labels⟩
    | .ok (labels, sizes) => ⟨Program.emit base labels {} nodes sizes, labels⟩

/-- The labels of an assembly sorted by name. -/
def Assembly.sortedLabels (a : Assembly) : List (String × UInt32) :=
  a.labels.mergeSort fun x y => compare x.1 y.1 != .gt

/-- An assembler keeps the labels of its last run. -/
structure Assembler where
  labels : List (String × UInt32) := []
  deriving Repr

/-- Assembles a source text; the assembler keeps the labels of this run only. -/
def Assembler.run (_ : Assembler) (src : String) (base : UInt32) : Assembler × Assembly :=
  let a := assemble src base
  (⟨a.labels⟩, a)

end C166Codec
