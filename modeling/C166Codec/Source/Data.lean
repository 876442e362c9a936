import C166Codec.Source.Statement
/-!
# Data directives

`db` writes bytes and quoted strings (as their UTF-8 bytes), `dw` writes little-endian words,
`even` writes one zero byte when the address is odd. A value is a number or, when written as a
name that does not read as a number, the low 16 bits of a label's address.

The size of a directive is known before labels are: a string counts its bytes, every other
`db` value one byte, every `dw` value two.
-/

namespace C166Codec

namespace Directive

/-- The text inside matching quotes, `'...'` or `"..."`. -/
def quoted? (s : String) : Option String :=
  match s.toList with
  | q :: rest =>
    if (q = '\'' || q = '"') && rest.getLast? = some q then some (String.ofList rest.dropLast)
    else none
  | [] => none

/-- The number of bytes a directive writes at address `pc`. -/
def size (d : Directive) (args : List String) (pc : UInt32) : Except SyntaxFault Nat :=
  match d with
  | .even => if args.isEmpty then .ok (pc.toNat % 2) else .error .evenArguments
  | .db => .ok (args.foldl (fun n a => n + ((quoted? a).map String.utf8ByteSize).getD 1) 0)
  | .dw => .ok (2 * args.length)

/-- The value of a constant: a label's address (low 16 bits) or a number. -/
def constant (labels : List (String × UInt32)) (s : String) : Except SourceError Nat :=
  let cs := s.toList
  if Lexeme.isName cs && !Lexeme.isHex cs then
    match labels.lookup (Text.lower s) with
    | some a => .ok (a &&& 0xFFFF).toNat
    | none => .error (.undefinedLabel s)
  else
    match Literal.parse s with
    | .ok lit => .ok lit.value
    | .error f => .error (.syntaxFault f)

/-- The bytes of one `db` or `dw` value. -/
def item (d : Directive) (labels : List (String × UInt32)) (arg : String) :
    Except SourceError (List UInt8) :=
  match quoted? arg with
  | some s => if d = .db then .ok s.toUTF8.toList else .error (.syntaxFault .stringOutsideDb)
  | none =>
    match constant labels arg with
    | .error e => .error (.constant arg e)
    | .ok v =>
      if d = .db then
        if v > 0xFF then .error (.syntaxFault (.byteRange arg)) else .ok [v.toUInt8]
      else if v > 0xFFFF then .error (.syntaxFault (.wordRange arg))
      else .ok [v.toUInt8, (v / 256).toUInt8]

/-- The bytes of a list of values, stopping at the first that fails. -/
def items (d : Directive) (labels : List (String × UInt32)) :
    List String → Except SourceError (List UInt8)
  | [] => .ok []
  | a :: rest =>
    match item d labels a with
    | .error e => .error e
    | .ok b => (items d labels rest).map (b ++ ·)

/-- The bytes a directive writes at address `pc`. -/
def generate (d : Directive) (args : List String) (pc : UInt32)
    (labels : List (String × UInt32)) : Except SourceError (List UInt8) :=
  match d with
  | .even => .ok (List.replicate (pc.toNat % 2) 0)
  | _ => if args.isEmpty then .error (.syntaxFault (.noValues d.name)) else items d labels args

end Directive

end C166Codec
