import C166Codec.Source.Lexeme
import C166Codec.Source.Fault
/-!
# Number literals

A number is written as a single decimal digit or as hexadecimal digits with an `h` suffix, at
most eight digits. A literal is wide when it has more than two significant digits, where one
leading `0` that only keeps a letter digit from starting the literal does not count: `0FFh`
is narrow, `00FFh`, `012h` and `100h` are wide.
-/

namespace C166Codec

/-- A number read from assembly text, and whether it asks for a 16-bit field. -/
structure Literal where
  value : Nat
  wide : Bool
  deriving DecidableEq, Repr

namespace Literal

/-- The significant digits: one leading `0` before a letter digit is dropped. -/
def significant : List Char → List Char
  | '0' :: d :: rest => if Lexeme.digitValue d ≥ 10 then d :: rest else '0' :: d :: rest
  | ds => ds

/-- A number literal, with blanks at both ends. -/
def parse (s : String) : Except SyntaxFault Literal :=
  let t := Text.trim s
  let cs := t.toList
  match cs with
  | [c] =>
    if Text.isDigit c then .ok ⟨c.toNat - 48, false⟩
    else .error (.invalidNumber t)
  | _ =>
    match Lexeme.hexDigits? cs with
    | none => .error (.invalidNumber t)
    | some ds =>
      if ds.length > 8 then .error (.numberTooLarge t)
      else .ok ⟨Lexeme.hexValue ds, (significant ds).length > 2⟩

example : (parse "0FFh").toOption = some ⟨255, false⟩ ∧
    (parse "00FFh").toOption = some ⟨255, true⟩ ∧ (parse " 7 ").toOption = some ⟨7, false⟩ := by
  decide +kernel

end Literal

end C166Codec
