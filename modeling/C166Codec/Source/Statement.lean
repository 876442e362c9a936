import C166Codec.Source.Operand
import C166Codec.Encoding.Opcode
/-!
# Statements

A line of assembly text holds an optional label definition `name:`, then optionally a
mnemonic and its operands, or a data directive (`db`, `dw`, `even`) and its arguments. A `;`
outside quotes starts a comment. Lines end at a line feed or a NUL character; one carriage
return before the end is dropped.

Operands and arguments are separated by commas outside brackets and quotes. Label names are
ASCII and are kept in lower case; a label name that reads as a hexadecimal number is refused,
since an operand spelled that way is a number.
-/

namespace C166Codec

/-- A data directive. -/
inductive Directive where
  /-- Bytes and strings. -/
  | db
  /-- Little-endian words. -/
  | dw
  /-- A zero byte when the address is odd. -/
  | even
  deriving DecidableEq, Repr

/-- The directive's name. -/
def Directive.name : Directive → String
  | .db => "db"
  | .dw => "dw"
  | .even => "even"

/-- The directive of a lower-case name. -/
def Directive.ofName? (s : String) : Option Directive :=
  if s = "db" then some .db else if s = "dw" then some .dw else if s = "even" then some .even
  else none

/-- What a statement does after its label. -/
inductive Action where
  /-- Nothing: the line holds only a label, a comment or blanks. -/
  | none
  | directive (d : Directive) (args : List String)
  /-- An instruction: its mnemonic in lower case and its operands. -/
  | instruction (mnemonic : String) (operands : List Operand)
  deriving Repr

/-- One parsed line. -/
structure Statement where
  /-- The label defined on the line, in lower case. -/
  label : Option String
  action : Action
  deriving Repr

namespace Statement

/-- The mnemonic or directive name, empty when the line does nothing. -/
def mnemonic (st : Statement) : String :=
  match st.action with
  | .none => ""
  | .directive d _ => d.name
  | .instruction mn _ => mn

/-- The operands of an instruction, empty otherwise. -/
def operands (st : Statement) : List Operand :=
  match st.action with
  | .instruction _ ops => ops
  | _ => []

/-- The arguments of a directive, empty otherwise. -/
def args (st : Statement) : List String :=
  match st.action with
  | .directive _ args => args
  | _ => []

/-- True for a line that does nothing after its label. -/
def isEmpty (st : Statement) : Bool :=
  match st.action with
  | .none => true
  | _ => false

/-! ## §1. Splitting a line -/

/-- The text before a `;` that is outside quotes; either quote character opens and closes a
quote. -/
def stripComment (cs : List Char) : List Char :=
  go false cs
where
  go (inQuote : Bool) : List Char → List Char
    | [] => []
    | c :: rest =>
      if c = '\'' || c = '"' then c :: go (!inQuote) rest
      else if c = ';' && !inQuote then []
      else c :: go inQuote rest

/-- Comma-separated parts, each trimmed; commas inside brackets or quotes do not separate.
Brackets are counted, so a stray `]` keeps the commas after it. -/
def splitOperands (cs : List Char) : List String :=
  go 0 false [] cs
where
  go (level : Int) (inQuote : Bool) (cur : List Char) : List Char → List String
    | [] => [Text.trim (String.ofList cur.reverse)]
    | c :: rest =>
      if c = '\'' || c = '"' then go level (!inQuote) (c :: cur) rest
      else if c = '[' then go (level + 1) inQuote (c :: cur) rest
      else if c = ']' then go (level - 1) inQuote (c :: cur) rest
      else if c = ',' && level = 0 && !inQuote then
        Text.trim (String.ofList cur.reverse) :: go level inQuote [] rest
      else go level inQuote (c :: cur) rest

/-- A label definition at the start of a line: an ASCII name, gaps and a colon. Returns the
name and the text after the colon. -/
def labelDefinition? (cs : List Char) : Option (List Char × List Char) :=
  match cs with
  | c :: rest =>
    if Text.isAsciiLetter c || c = '_' then
      let name := c :: rest.takeWhile (fun d => Text.isAsciiLetter d || Text.isDigit d || d = '_')
      let after := Lexeme.skipGaps (rest.dropWhile fun d => Text.isAsciiLetter d || Text.isDigit d || d = '_')
      match after with
      | ':' :: more => some (name, more)
      | _ => none
    else none
  | [] => none

/-- The mnemonic (up to the first space or tab) and the trimmed rest. -/
def splitMnemonic (cs : List Char) : List Char × List Char :=
  let mn := cs.takeWhile fun c => c != ' ' && c != '\t'
  (mn, Text.trimChars (cs.dropWhile fun c => c != ' ' && c != '\t'))

/-! ## §2. Reading a statement -/

/-- The operands of an instruction, stopping at the first that cannot be read. -/
def parseOperands : List String → Except SourceError (List Operand)
  | [] => .ok []
  | s :: rest =>
    match Operand.parse s with
    | .error f => .error (.syntaxFault f)
    | .ok o => (parseOperands rest).map (o :: ·)

/-- The statement after the label. -/
def parseAction (cs : List Char) : Except SourceError Action :=
  if cs.isEmpty then .ok .none
  else
    let (mnChars, rest) := splitMnemonic cs
    let written := String.ofList mnChars
    let mn := Text.lower written
    match Directive.ofName? mn with
    | some d => .ok (.directive d (if rest.isEmpty then [] else splitOperands rest))
    | none =>
      if (Descriptor.byMnemonic mn).isEmpty then .error (.unknownMnemonic written)
      else if rest.isEmpty then .ok (.instruction mn [])
      else (parseOperands (splitOperands rest)).map (.instruction mn)

/-- The statement of one line (without its terminator). -/
def parse (line : List Char) : Except SourceError Statement :=
  let line := if line.getLast? = some '\r' then line.dropLast else line
  let cs := Text.trimChars (stripComment line)
  match labelDefinition? cs with
  | some (name, rest) =>
    if Lexeme.isHex name then .error (.syntaxFault (.hexLabel (String.ofList name)))
    else (parseAction (Text.trimChars rest)).map (⟨some (Text.lower (String.ofList name)), ·⟩)
  | none => (parseAction cs).map (⟨none, ·⟩)

/-- A text's first line and the rest after its terminator, a line feed or a NUL; the flag
tells whether a terminator was found. -/
def breakLine : List Char → List Char × Bool × List Char
  | [] => ([], false, [])
  | c :: rest =>
    if c = '\n' || c = '\x00' then ([], true, rest)
    else
      let (line, found, after) := breakLine rest
      (c :: line, found, after)

/-- The UTF-8 length of a line and its terminator. -/
def consumedBytes (line : List Char) (terminated : Bool) : Nat :=
  (String.ofList line).utf8ByteSize + if terminated then 1 else 0

/-- The statement of a text's first line, and the number of bytes that line takes with its
terminator. -/
def parseLine (text : String) : Except SourceError Statement × Nat :=
  let (line, found, _) := breakLine text.toList
  (parse line, consumedBytes line found)

/-- The lines of a text, without their terminators. The text after the last terminator is a
line only when it is not empty. -/
def lines (cs : List Char) : List (List Char) :=
  go [] cs
where
  go (cur : List Char) : List Char → List (List Char)
    | [] => if cur.isEmpty then [] else [cur.reverse]
    | c :: rest =>
      if c = '\n' || c = '\x00' then cur.reverse :: go [] rest else go (c :: cur) rest

end Statement

end C166Codec
