/-!
# Little-endian words

The C166 stores a 16-bit word low byte first. `toBytes` and `ofBytes` convert between words
and bytes; `ofBytes` pads an odd final byte with a zero high byte.
-/

namespace C166Codec.Word

/-- The two bytes of a word, low byte first. -/
def split (w : UInt16) : List UInt8 := [w.toUInt8, (w >>> 8).toUInt8]

/-- The word of a low and a high byte. -/
def join (lo hi : UInt8) : UInt16 := lo.toUInt16 ||| (hi.toUInt16 <<< 8)

/-- Words as bytes, each low byte first. -/
def toBytes (ws : List UInt16) : List UInt8 := ws.flatMap split

/-- Bytes as words, two at a time low byte first; an odd final byte gets a zero high byte. -/
def ofBytes : List UInt8 → List UInt16
  | [] => []
  | [lo] => [join lo 0]
  | lo :: hi :: rest => join lo hi :: ofBytes rest

example : toBytes [0x1234, 0xABCD] = [0x34, 0x12, 0xCD, 0xAB] ∧
    ofBytes [0, 1, 2, 3, 4] = [0x100, 0x302, 0x4] := by decide

end C166Codec.Word
