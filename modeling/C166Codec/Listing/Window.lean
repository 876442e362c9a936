import C166Codec.Instruction.Basic
/-!
# The ext window while listing

After an `extr`, `extpr` or `extsr` prefix with range `n`, the next `n` instructions name
short addresses in the extended window. A listing may also start inside the extended window
for good (`base`). A stretch of data closes a window opened by a prefix.
-/

namespace C166Codec

/-- The ext window of a listing. -/
structure ListingWindow where
  /-- True when the whole listing is in the extended window. -/
  base : Bool
  /-- The number of instructions still covered by a prefix. -/
  remaining : Nat
  deriving DecidableEq, Repr

namespace ListingWindow

/-- True while short addresses name the extended registers. -/
def active (w : ListingWindow) : Bool := w.base || w.remaining > 0

/-- True for the prefixes that open a window. -/
def opens (mn : String) : Bool := mn = "extr" || mn = "extpr" || mn = "extsr"

/-- The window after an instruction with mnemonic `mn`: one fewer covered, or a new window of
`range` instructions after a prefix. -/
def advance (w : ListingWindow) (mn : String) (range : Nat) : ListingWindow :=
  let w := { w with remaining := w.remaining - 1 }
  if opens mn then { w with remaining := range } else w

/-- The window after an instruction, a prefix's range read from its irange field. -/
def step (w : ListingWindow) (i : Instruction) : ListingWindow :=
  w.advance i.mnemonic (i.fields.uint .irange0).toNat

/-- The window after data: a prefix's window is closed. -/
def reset (w : ListingWindow) : ListingWindow := { w with remaining := 0 }

end ListingWindow

end C166Codec
