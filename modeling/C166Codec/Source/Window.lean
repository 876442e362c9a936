import C166Codec.Source.Operand
/-!
# The ext window while assembling

After an `extr`, `extpr` or `extsr` prefix with range `n`, the next `n` instructions reach the
extended special function registers through short addresses. The window counts the
instructions still covered; a data directive closes it.
-/

namespace C166Codec

/-- The number of instructions still covered by an ext prefix. -/
structure SourceWindow where
  remaining : Int := 0
  deriving DecidableEq, Repr

namespace SourceWindow

/-- True while short addresses reach the extended registers. -/
def active (w : SourceWindow) : Bool := w.remaining > 0

/-- True for the prefixes that open a window. -/
def opens (mn : String) : Bool := mn = "extr" || mn = "extpr" || mn = "extsr"

/-- The window after an instruction with mnemonic `mn`: one fewer covered, or after a prefix
with a count a new window of that many instructions. -/
def advance (w : SourceWindow) (mn : String) (count : Option Int) : SourceWindow :=
  let w := if w.remaining > 0 then ⟨w.remaining - 1⟩ else w
  if opens mn then
    match count with
    | some n => ⟨n⟩
    | none => w
  else w

/-- The window after an instruction, a prefix's count read from its last operand. -/
def step (w : SourceWindow) (mn : String) (ops : List Operand) : SourceWindow :=
  w.advance mn (ops.getLast?.map Operand.value)

/-- The window after a directive: closed. -/
def close (_ : SourceWindow) : SourceWindow := {}

end SourceWindow

end C166Codec
