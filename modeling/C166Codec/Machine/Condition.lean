import C166Codec.Text.Case
/-!
# Condition codes

The sixteen condition codes of the conditional jumps and calls, in encoding order, with their
names `cc_UC` .. `cc_ULE`. Names are read in any case; `cc_EQ`, `cc_NE`, `cc_ULT` and `cc_UGE`
are second names of `cc_Z`, `cc_NZ`, `cc_C` and `cc_NC`.
-/

namespace C166Codec

/-- A condition code: the low nibble of a condition field. -/
structure Condition where
  code : Fin 16
  deriving DecidableEq, Repr

namespace Condition

/-- The names of the sixteen codes, in encoding order. -/
def names : List String :=
  ["cc_UC", "cc_NET", "cc_Z", "cc_NZ", "cc_V", "cc_NV", "cc_N", "cc_NN",
   "cc_C", "cc_NC", "cc_SGT", "cc_SLE", "cc_SLT", "cc_SGE", "cc_UGT", "cc_ULE"]

/-- Second names, in lower case, with the codes they stand for. -/
def aliases : List (String × Fin 16) :=
  [("cc_eq", 2), ("cc_ne", 3), ("cc_ult", 8), ("cc_uge", 9)]

/-- The condition of the low nibble of `n`. -/
def ofNat (n : Nat) : Condition := ⟨⟨n % 16, Nat.mod_lt _ (by decide)⟩⟩

/-- The always-true condition `cc_UC`. -/
def always : Condition := ⟨0⟩

/-- The condition's name. -/
def name (c : Condition) : String := names.getD c.code.val ""

/-- True for `cc_UC`, the condition that always holds. -/
def isAlways (c : Condition) : Bool := c.code = 0

/-- The code of a name, in any case. -/
def parse? (s : String) : Option Condition :=
  let lc := Text.lower s
  if !lc.startsWith "cc_" then none
  else
    match (List.finRange 16).find? (fun i => Text.lower (names.getD i.val "") == lc) with
    | some i => some ⟨i⟩
    | none => (aliases.lookup lc).map (⟨·⟩)

example : parse? "CC_z" = some ⟨2⟩ ∧ parse? "cc_uge" = some ⟨9⟩ ∧ parse? "cc_x" = none := by
  decide +kernel

end Condition

end C166Codec
