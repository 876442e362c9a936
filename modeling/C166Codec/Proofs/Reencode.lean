import C166Codec.Proofs.Bytes
/-!
# Decoding then encoding

Every layout's decoder accepts only bytes its encoder writes: encoding the fields that
`Layout.decode` reads from an instruction gives back the instruction's bytes
(`Layout.encode_of_decode`). The one exception is the `RR ## xx` layout, whose last byte is
not read and comes back as `00h`; `Layout.canonical` says so.

The proof goes layout by layout (`Layout.encode_decodeBody`). A layout's decoder refuses a
reserved pattern with a check on the bytes; each check is the hypothesis under which the
matching byte fact of `C166Codec.Proofs.Bytes` rebuilds the byte from its fields.
-/

namespace C166Codec

namespace Layout

/-! ## §1. The bytes an instruction occupies -/

/-- The bytes of an instruction of layout `l` with opcode byte `op`, from the three bytes after
it: two bytes for a 2-byte layout, all four otherwise. -/
def window (l : Layout) (op b1 b2 b3 : UInt8) : List UInt8 :=
  if l.length = 2 then [op, b1] else [op, b1, b2, b3]

/-- The bytes an encoder writes for an instruction's bytes: the same, except that the unread
last byte of `RR ## xx` is `00h`. -/
def canonical (l : Layout) (b : List UInt8) : List UInt8 :=
  if l = .regData8 then b.set 3 0 else b

/-- The first `l.length` bytes of an instruction long enough for `l` are its window. -/
theorem take_eq_window {l : Layout} {op : UInt8} {rest : List UInt8}
    (hlen : ¬ (op :: rest).length < l.length) :
    (op :: rest).take l.length =
      l.window op (((op :: rest).take l.length).getD 1 0) (((op :: rest).take l.length).getD 2 0)
        (((op :: rest).take l.length).getD 3 0) := by
  rcases l.length_eq with h2 | h4
  · rcases rest with _ | ⟨x, t⟩
    · simp [h2] at hlen
    · simp [window, h2]
  · rcases rest with _ | ⟨x, _ | ⟨y, _ | ⟨z, t⟩⟩⟩
    all_goals simp [h4] at hlen
    simp [window, h4]

/-! ## §2. Layout by layout -/

/-- Encoding the fields a layout's body decoder reads gives back the window they were read
from. Each case takes the decoder's check on the bytes and rebuilds the bytes from the fields
with the matching byte fact. -/
theorem encode_decodeBody (l : Layout) (op b1 b2 b3 : UInt8) (body : List (Field × Value))
    (h : l.decodeBody op b1 b2 b3 = .ok body) :
    l.encode op (Fields.ofList (l.embeddedSetting op ++ body)) =
      .ok (l.canonical (l.window op b1 b2 b3)) := by
  cases l <;> simp [decodeBody, ite_eq_iff, decodeSub] at h
  -- the layouts that read every byte pattern
  case nm | mn | dataN | condRel | bitShort | condReg | rel | reg | regMem | regData16
      | regData8 | bitfield | bitfieldH | bitPair | nmData16 | segCaddr =>
    subst h
    simp [encode, checkEmbedded, embedded, encodeBody, embeddedSetting, needNibbles, needNibble,
      needByte, needWord, needDisplacement, need, Fields.ofList, unsigned, signed, wordValue,
      Value.isSigned, Value.asUInt, Value.asInt, window, canonical, length, Word.split_join]
  -- the layouts with a fixed nibble or bit
  case n0 =>
    obtain ⟨hc, rfl⟩ := h
    simp [encode, checkEmbedded, embedded, encodeBody, embeddedSetting, needNibble, need,
      Fields.ofList, unsigned, Value.isSigned, Value.asUInt, window, canonical, length,
      hi_shl_of_lo_eq_zero hc]
  case nn =>
    obtain ⟨hc, rfl⟩ := h
    simp [encode, checkEmbedded, embedded, encodeBody, embeddedSetting, needNibble, need,
      Fields.ofList, unsigned, Value.isSigned, Value.asUInt, window, canonical, length, hc,
      lo_shl_or_lo_of_eq hc]
  case trap =>
    obtain ⟨hc, rfl⟩ := h
    simp [encode, checkEmbedded, embedded, encodeBody, embeddedSetting, need, Fields.ofList,
      unsigned, Value.isSigned, Value.asUInt, window, canonical, length, trap_byte hc]
  case bitRel =>
    obtain ⟨hc, rfl⟩ := h
    simp [encode, checkEmbedded, embedded, encodeBody, embeddedSetting, needNibble, needByte,
      needDisplacement, need, Fields.ofList, unsigned, signed, Value.isSigned, Value.asUInt,
      Value.asInt, window, canonical, length, hi_shl_of_lo_eq_zero hc]
  case fnMem | fnData16 =>
    obtain ⟨hc, rfl⟩ := h
    simp [encode, checkEmbedded, embedded, encodeBody, embeddedSetting, needNibble, needWord,
      need, Fields.ofList, unsigned, wordValue, Value.isSigned, Value.asUInt, window, canonical,
      length, or_lo_of_hi_eq_f hc, Word.split_join]
  case zeroNMem =>
    obtain ⟨hc, rfl⟩ := h
    -- the register nibble is the whole byte, so it passes the nibble bound
    have hb : ¬ (15 : UInt32) < b1.toUInt32 := by rw [← lo_of_hi_eq_zero hc]; exact not_lo_gt b1
    simp [hb, encode, checkEmbedded, embedded, encodeBody, embeddedSetting, needNibble, needWord,
      need, Fields.ofList, unsigned, wordValue, Value.isSigned, Value.asUInt, window, canonical,
      length, lo_of_hi_eq_zero hc, Word.split_join]
  case condCaddr =>
    obtain ⟨hc, rfl⟩ := h
    simp [encode, checkEmbedded, embedded, encodeBody, embeddedSetting, needNibble, needWord,
      need, Fields.ofList, unsigned, wordValue, Value.isSigned, Value.asUInt, window, canonical,
      length, hi_shl_of_lo_eq_zero hc, Word.split_join]
  -- the data-or-register byte, by its mode tag
  case data3OrReg =>
    rcases h with ⟨hc, rfl⟩ | ⟨hc, rfl⟩
    · simp [encode, checkEmbedded, embedded, encodeBody, embeddedSetting, needNibble,
        needModeBits, need, Fields.ofList, unsigned, Value.isSigned, Value.asUInt, Value.asText,
        window, canonical, length, data3_byte hc]
    · by_cases h2 : b1 >>> 2 &&& 3 = 2
      · simp [encode, checkEmbedded, embedded, encodeBody, embeddedSetting, needNibble,
          needModeBits, need, Fields.ofList, unsigned, Value.isSigned, Value.asUInt,
          Value.asText, window, canonical, length, h2, reg_byte h2, Mode.reg, Mode.data3]
      · simp [encode, checkEmbedded, embedded, encodeBody, embeddedSetting, needNibble,
          needModeBits, need, Fields.ofList, unsigned, Value.isSigned, Value.asUInt,
          Value.asText, window, canonical, length, h2, regInc_byte (UInt8.not_lt.mpr hc) h2,
          Mode.regInc, Mode.reg, Mode.data3]
  -- the layouts without fields
  case const =>
    obtain ⟨rfl, rfl⟩ := h
    simp [encode, checkEmbedded, embedded, encodeBody, window, canonical, length]
  case complemented =>
    obtain ⟨⟨rfl, rfl, rfl⟩, rfl⟩ := h
    simp [encode, checkEmbedded, embedded, encodeBody, window, canonical, length]
  -- the sub-opcode layouts: the mnemonic selects the sub-opcode it was read from
  case atomic =>
    obtain ⟨hlo, hsub⟩ := h
    cases hname : SubTable.atomic.entry (subOf b1) with
    | none => simp [hname] at hsub
    | some name =>
      simp only [hname, Except.ok.injEq] at hsub
      subst hsub
      simp [encode, checkEmbedded, embedded, encodeBody, embeddedSetting, needSub, Fields.text,
        SubTable.select?_of_entry hname, Fields.ofList, Value.asUInt, Value.asText, window,
        canonical, length, sub_byte_of_lo_eq_zero hlo]
  case extReg =>
    cases hname : SubTable.ext.entry (subOf b1) with
    | none => simp [hname] at h
    | some name =>
      simp only [hname, Except.map_ok, Except.ok.injEq] at h
      subst h
      simp [encode, checkEmbedded, embedded, encodeBody, embeddedSetting, needSub, needNibble,
        need, Fields.text, SubTable.select?_of_entry hname, Fields.ofList, unsigned,
        Value.isSigned, Value.asUInt, Value.asText, window, canonical, length, sub_byte_or_lo]
  case extImm =>
    obtain ⟨hlo, hsub⟩ := h
    cases hname : SubTable.ext.entry (subOf b1) with
    | none => simp [hname] at hsub
    | some name =>
      simp only [hname] at hsub
      -- an odd sub-opcode reads a page from the two bytes, an even one a segment
      by_cases hp : isPageSub (subOf b1) = true
      · simp [hp, ite_eq_iff] at hsub
        obtain ⟨h3, rfl⟩ := hsub
        simp [encode, checkEmbedded, embedded, encodeBody, embeddedSetting, needSub, need,
          Fields.text, SubTable.select?_of_entry hname, Fields.ofList, Value.isSigned,
          Value.asUInt, Value.asText, window, canonical, length, hp, page_word h3,
          sub_byte_of_lo_eq_zero hlo]
      · simp [hp, ite_eq_iff] at hsub
        obtain ⟨rfl, rfl⟩ := hsub
        simp [encode, checkEmbedded, embedded, encodeBody, embeddedSetting, needSub, need,
          Fields.text, SubTable.select?_of_entry hname, Fields.ofList, unsigned, Value.isSigned,
          Value.asUInt, Value.asText, window, canonical, length, hp, sub_byte_of_lo_eq_zero hlo]

/-! ## §3. Decoding then encoding -/

theorem getD_zero_take_cons (op : UInt8) (rest : List UInt8) (l : Layout) :
    ((op :: rest).take l.length).getD 0 0 = op := by
  rcases l.length_eq with h | h <;> simp [h]

/-- Encoding the fields decoded from an instruction gives back its bytes (with `00h` for the
unread byte of `RR ## xx`). -/
theorem encode_of_decode {l : Layout} {op : UInt8} {rest : List UInt8} {fs : Fields}
    (h : l.decode (op :: rest) = .ok fs) :
    l.encode op fs = .ok (l.canonical ((op :: rest).take l.length)) := by
  unfold decode at h
  split at h
  · cases h
  · rename_i hlen
    dsimp only at h
    split at h
    · cases h
    · rename_i body hbody
      cases h
      rw [getD_zero_take_cons] at hbody ⊢
      rw [take_eq_window hlen]
      exact encode_decodeBody l op _ _ _ body hbody

end Layout

end C166Codec
