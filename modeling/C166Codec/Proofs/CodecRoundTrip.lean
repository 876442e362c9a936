import C166Codec.Proofs.Reencode
/-!
# The layout codecs are inverse to each other

`Layout.codec_roundTrip` is the round trip of every layout's codec in both directions:

* decoding an instruction and encoding its fields gives back its bytes
  (`Layout.encode_of_decode`, with `00h` for the unread byte of `RR ## xx`);
* encoding any field map writes the layout's length of bytes, starting with the opcode byte;
  they decode to fields that agree with the map on every field the layout packs, and encode
  to the same bytes again (`Layout.decode_encode`).

"Agree" is `Layout.Agrees`: a displacement is compared as a signed number, the mode and the
mnemonic as texts, any other field as an unsigned number; fields the layout does not pack are
not compared. The field list `Layout.packs` follows `Layout.encodeBody`: for a data-or-register
byte and for an ext instruction it depends on the mode or the mnemonic of the map.
-/

namespace C166Codec

@[simp] theorem Value.asUInt_uint (n : UInt32) : (Value.uint n).asUInt = n := rfl
@[simp] theorem Value.asInt_int (i : Int32) : (Value.int i).asInt = i := rfl
@[simp] theorem Value.asText_text (s : String) : (Value.text s).asText = s := rfl

namespace Layout

/-! ## §1. What a successful reader read -/

theorem need_ok {fs : Fields} {f : Field} {max n : UInt32} (h : need fs f max = .ok n) :
    ∃ v, fs.get? f = some v ∧ v.asUInt = n ∧ n ≤ max ∧ ¬ (v.isSigned = true ∧ v.asInt < 0) := by
  unfold need at h
  split at h
  · cases h
  · rename_i v hv
    split at h
    · cases h
    · rename_i hc
      cases h
      simp only [Bool.or_eq_true, Bool.and_eq_true, decide_eq_true_eq, not_or] at hc
      exact ⟨v, hv, rfl, UInt32.not_lt.mp hc.2, hc.1⟩

theorem needNibble_ok {fs : Fields} {f : Field} {x : UInt8} (h : needNibble fs f = .ok x) :
    ∃ v, fs.get? f = some v ∧ v.asUInt = x.toUInt32 ∧ x.toNat < 16 := by
  obtain ⟨n, hn, rfl⟩ := Except.map_eq_ok h
  obtain ⟨v, hv, rfl, hle, -⟩ := need_ok hn
  have : v.asUInt.toNat ≤ 15 := UInt32.le_iff_toNat_le.mp hle
  refine ⟨v, hv, (toUInt8_toUInt32_of_le (UInt32.le_iff_toNat_le.mpr (by simp; omega))).symm, ?_⟩
  simp; omega

theorem needByte_ok {fs : Fields} {f : Field} {x : UInt8} (h : needByte fs f = .ok x) :
    ∃ v, fs.get? f = some v ∧ v.asUInt = x.toUInt32 := by
  obtain ⟨n, hn, rfl⟩ := Except.map_eq_ok h
  obtain ⟨v, hv, rfl, hle, -⟩ := need_ok hn
  exact ⟨v, hv, (toUInt8_toUInt32_of_le hle).symm⟩

theorem needNibbles_ok {fs : Fields} {f g : Field} {x : UInt8} (h : needNibbles fs f g = .ok x) :
    ∃ a b, needNibble fs f = .ok a ∧ needNibble fs g = .ok b ∧ x = a <<< 4 ||| b := by
  obtain ⟨a, ha, h⟩ := Except.bind_eq_ok h
  obtain ⟨b, hb, h⟩ := Except.bind_eq_ok h
  exact ⟨a, b, ha, hb, (Except.ok.inj h).symm⟩

theorem needWord_ok {fs : Fields} {f : Field} {ws : List UInt8} (h : needWord fs f = .ok ws) :
    ∃ v w, fs.get? f = some v ∧ v.asUInt = w.toUInt32 ∧ ws = Word.split w := by
  obtain ⟨n, hn, rfl⟩ := Except.map_eq_ok h
  obtain ⟨v, hv, rfl, hle, -⟩ := need_ok hn
  refine ⟨v, v.asUInt.toUInt16, hv, ?_, rfl⟩
  apply UInt32.toNat_inj.mp
  have : v.asUInt.toNat ≤ 65535 := UInt32.le_iff_toNat_le.mp hle
  simp; omega

theorem needDisplacement_ok {fs : Fields} {x : UInt8} (h : needDisplacement fs = .ok x) :
    ∃ v, fs.get? .relative0 = some v ∧ v.asInt = x.toInt8.toInt32 := by
  unfold needDisplacement at h
  split at h
  · cases h
  · rename_i v hv
    dsimp only at h
    split at h
    · cases h
    · rename_i hc
      cases h
      simp only [Bool.or_eq_true, decide_eq_true_eq, not_or, Int32.lt_iff_toInt_lt, gt_iff_lt] at hc
      refine ⟨v, hv, Int32.toInt_inj.mp ?_⟩
      have h128 : (-128 : Int32).toInt = -128 := by decide
      have h127 : (127 : Int32).toInt = 127 := by decide
      rw [h128, h127] at hc
      simp only [Int8.toInt8_toUInt8, Int8.toInt_toInt32, Int32.toInt_toInt8]
      exact (Int.bmod_eq_of_le (by omega) (by omega)).symm

theorem needSub_ok {t : SubTable} {fs : Fields} {sel : Fin 4} {r : UInt32}
    (h : needSub t fs = .ok (sel, r)) :
    ∃ v w, fs.get? .mnemonic = some v ∧ t.entry sel = some v.asText ∧ fs.get? .irange0 = some w ∧
      w.asUInt = r ∧ 1 ≤ r ∧ r ≤ 4 := by
  unfold needSub at h
  dsimp only at h
  split at h
  · cases h
  · rename_i sel' hsel
    have hentry := SubTable.entry_of_select? hsel
    have hv : ∃ v, fs.get? .mnemonic = some v ∧ v.asText = fs.text .mnemonic := by
      cases hm : fs.get? .mnemonic with
      | none => exact absurd (by simp [Fields.text, hm]) (SubTable.entry_ne_empty hentry)
      | some v => exact ⟨v, rfl, by simp [Fields.text, hm]⟩
    obtain ⟨v, hv, hvt⟩ := hv
    split at h
    · rename_i w hw
      split at h
      · cases h
      · rename_i hc
        cases h
        simp only [Bool.or_eq_true, decide_eq_true_eq, not_or, UInt32.not_lt] at hc
        exact ⟨v, w, hv, hvt ▸ hentry, hw, rfl, hc.1, hc.2⟩
    · cases h

theorem checkEmbedded_ok {l : Layout} {op : UInt8} {g : Fields} {e : Field}
    (h : l.checkEmbedded op g = .ok ()) (he : l.embedded = some e) :
    ∃ w, g.get? e = some w ∧ w.asUInt = (hi op).toUInt32 := by
  unfold checkEmbedded at h
  rw [he] at h
  obtain ⟨n, hn, hc⟩ := Except.bind_eq_ok h
  obtain ⟨w, hw, rfl, -⟩ := need_ok hn
  refine ⟨w, hw, ?_⟩
  by_contra hne
  simp [hne] at hc


/-! ## §2. Fields that agree -/

/-- The fields `encode` packs from a field map. -/
def packs (l : Layout) (fs : Fields) : List Field :=
  l.embedded.toList ++
    match l with
    | .nm | .mn => [.register0, .register1]
    | .n0 | .nn | .reg => [.register0]
    | .dataN => [.data0, .register0]
    | .data3OrReg =>
      [.register0, .mode0, if fs.text .mode0 = Mode.data3 then .data0 else .register1]
    | .condRel | .rel => [.relative0]
    | .bitShort => [.bitoff0]
    | .condReg => [.condition0, .register0]
    | .const | .complemented => []
    | .trap => [.trap0]
    | .atomic => [.mnemonic, .irange0]
    | .extReg => [.mnemonic, .irange0, .register0]
    | .extImm => [.mnemonic, .irange0, if isPageMnemonic (fs.text .mnemonic) then .page0 else .segment0]
    | .regMem | .fnMem | .zeroNMem => [.register0, .address0]
    | .regData16 | .regData8 | .fnData16 => [.register0, .data0]
    | .bitfield | .bitfieldH => [.bitoff0, .mask0, .data0]
    | .bitPair => [.bitoff0, .bitoff1, .bit0, .bit1]
    | .bitRel => [.bitoff0, .relative0, .bit0]
    | .nmData16 => [.register0, .register1, .data0]
    | .condCaddr => [.condition0, .address0]
    | .segCaddr => [.segment0, .address0]

/-- Two values of field `x` agree: a displacement as a signed number, the mode and the
mnemonic as texts, any other field as an unsigned number. -/
def sameValue (x : Field) (v w : Value) : Prop :=
  match x with
  | .relative0 => v.asInt = w.asInt
  | .mode0 | .mnemonic => v.asText = w.asText
  | _ => v.asUInt = w.asUInt

/-- Decoded fields `fs` carry every field that `l` packs from `g`, with the same value. -/
def Agrees (l : Layout) (g fs : Fields) : Prop :=
  ∀ x ∈ l.packs g, ∃ v w, fs.get? x = some v ∧ g.get? x = some w ∧ sameValue x v w


/-! ## §3. Encoding then decoding -/

/-- The bytes a layout's body encoder writes decode to fields that agree with the map, and
make an instruction of the layout's length. -/
theorem decode_encodeBody (l : Layout) (op : UInt8) (g : Fields) (body : List UInt8)
    (he : l.checkEmbedded op g = .ok ()) (h : l.encodeBody op g = .ok body) :
    (op :: body).length = l.length ∧ ∃ fs, l.decode (op :: body) = .ok fs ∧ l.Agrees g fs := by
  cases l
  -- two nibbles packed into the byte after the opcode
  case nm | mn | dataN | condReg =>
    obtain ⟨n, hn, hbody⟩ := Except.bind_eq_ok h
    cases hbody
    obtain ⟨a, b, ha, hb, rfl⟩ := needNibbles_ok hn
    obtain ⟨v, hv, hva, ha'⟩ := needNibble_ok ha
    obtain ⟨w, hw, hwb, hb'⟩ := needNibble_ok hb
    simp [decode, decodeBody, length, embeddedSetting, embedded, Agrees, packs, sameValue,
      Fields.ofList, unsigned, hv, hw, hva, hwb, ha', hb']
  case n0 | nn =>
    obtain ⟨a, ha, hbody⟩ := Except.bind_eq_ok h
    cases hbody
    obtain ⟨v, hv, hva, ha'⟩ := needNibble_ok ha
    simp [decode, decodeBody, length, embeddedSetting, embedded, Agrees, packs, sameValue,
      Fields.ofList, unsigned, hv, hva, ha']
  case reg =>
    obtain ⟨a, ha, hbody⟩ := Except.bind_eq_ok h
    cases hbody
    obtain ⟨v, hv, hva⟩ := needByte_ok ha
    simp [decode, decodeBody, length, embeddedSetting, embedded, Agrees, packs, sameValue,
      Fields.ofList, unsigned, hv, hva]
  case rel =>
    obtain ⟨a, ha, hbody⟩ := Except.bind_eq_ok h
    cases hbody
    obtain ⟨v, hv, hva⟩ := needDisplacement_ok ha
    simp [decode, decodeBody, length, embeddedSetting, embedded, Agrees, packs, sameValue,
      Fields.ofList, signed, hv, hva]
  case const | complemented =>
    cases h
    simp [decode, decodeBody, length, embeddedSetting, embedded, Agrees, packs, Fields.ofList]
  -- a byte, then a word
  case regMem | regData16 | segCaddr =>
    obtain ⟨r, hr, hbody⟩ := Except.bind_eq_ok h
    obtain ⟨ws, hws, hbody⟩ := Except.bind_eq_ok hbody
    cases hbody
    obtain ⟨v, hv, hva⟩ := needByte_ok hr
    obtain ⟨u, w, hu, huw, rfl⟩ := needWord_ok hws
    simp [decode, decodeBody, length, embeddedSetting, embedded, Agrees, packs, sameValue,
      Fields.ofList, unsigned, wordValue, Word.split, Word.join_split, hv, hva, hu, huw]
  case regData8 =>
    obtain ⟨r, hr, hbody⟩ := Except.bind_eq_ok h
    obtain ⟨d, hd, hbody⟩ := Except.bind_eq_ok hbody
    cases hbody
    obtain ⟨v, hv, hva⟩ := needByte_ok hr
    obtain ⟨u, hu, hud⟩ := needByte_ok hd
    simp [decode, decodeBody, length, embeddedSetting, embedded, Agrees, packs, sameValue,
      Fields.ofList, unsigned, hv, hva, hu, hud]
  case bitfield | bitfieldH =>
    obtain ⟨q, hq, hbody⟩ := Except.bind_eq_ok h
    obtain ⟨m, hm, hbody⟩ := Except.bind_eq_ok hbody
    obtain ⟨d, hd, hbody⟩ := Except.bind_eq_ok hbody
    cases hbody
    obtain ⟨v, hv, hvq⟩ := needByte_ok hq
    obtain ⟨u, hu, hum⟩ := needByte_ok hm
    obtain ⟨t, ht, htd⟩ := needByte_ok hd
    simp [decode, decodeBody, length, embeddedSetting, embedded, Agrees, packs, sameValue,
      Fields.ofList, unsigned, hv, hvq, hu, hum, ht, htd]
  case bitPair =>
    obtain ⟨q, hq, hbody⟩ := Except.bind_eq_ok h
    obtain ⟨z, hz, hbody⟩ := Except.bind_eq_ok hbody
    obtain ⟨n, hn, hbody⟩ := Except.bind_eq_ok hbody
    cases hbody
    obtain ⟨v, hv, hvq⟩ := needByte_ok hq
    obtain ⟨u, hu, huz⟩ := needByte_ok hz
    obtain ⟨a, b, ha, hb, rfl⟩ := needNibbles_ok hn
    obtain ⟨t, ht, hta, ha'⟩ := needNibble_ok ha
    obtain ⟨s, hs, hsb, hb'⟩ := needNibble_ok hb
    simp [decode, decodeBody, length, embeddedSetting, embedded, Agrees, packs, sameValue,
      Fields.ofList, unsigned, hv, hvq, hu, huz, ht, hta, ha', hs, hsb, hb']
  case nmData16 =>
    obtain ⟨n, hn, hbody⟩ := Except.bind_eq_ok h
    obtain ⟨ws, hws, hbody⟩ := Except.bind_eq_ok hbody
    cases hbody
    obtain ⟨a, b, ha, hb, rfl⟩ := needNibbles_ok hn
    obtain ⟨t, ht, hta, ha'⟩ := needNibble_ok ha
    obtain ⟨s, hs, hsb, hb'⟩ := needNibble_ok hb
    obtain ⟨u, w, hu, huw, rfl⟩ := needWord_ok hws
    simp [decode, decodeBody, length, embeddedSetting, embedded, Agrees, packs, sameValue,
      Fields.ofList, unsigned, wordValue, Word.split, Word.join_split, ht, hta, ha', hs, hsb, hb',
      hu, huw]
  -- a nibble beside a fixed one, then a word
  case fnMem | fnData16 | zeroNMem | condCaddr =>
    obtain ⟨n, hn, hbody⟩ := Except.bind_eq_ok h
    obtain ⟨ws, hws, hbody⟩ := Except.bind_eq_ok hbody
    cases hbody
    obtain ⟨t, ht, htn, hn'⟩ := needNibble_ok hn
    obtain ⟨u, w, hu, huw, rfl⟩ := needWord_ok hws
    simp [decode, decodeBody, length, embeddedSetting, embedded, Agrees, packs, sameValue,
      Fields.ofList, unsigned, wordValue, Word.split, Word.join_split, ht, htn, hn', hu, huw]
  case bitRel =>
    obtain ⟨q, hq, hbody⟩ := Except.bind_eq_ok h
    obtain ⟨r, hr, hbody⟩ := Except.bind_eq_ok hbody
    obtain ⟨n, hn, hbody⟩ := Except.bind_eq_ok hbody
    cases hbody
    obtain ⟨v, hv, hvq⟩ := needByte_ok hq
    obtain ⟨u, hu, hur⟩ := needDisplacement_ok hr
    obtain ⟨t, ht, htn, hn'⟩ := needNibble_ok hn
    simp [decode, decodeBody, length, embeddedSetting, embedded, Agrees, packs, sameValue,
      Fields.ofList, unsigned, signed, hv, hvq, hu, hur, ht, htn, hn']
  -- the opcode's high nibble is a field: the embedded check says it is the map's
  case condRel =>
    obtain ⟨w, hw, hwc⟩ := checkEmbedded_ok he rfl
    obtain ⟨a, ha, hbody⟩ := Except.bind_eq_ok h
    cases hbody
    obtain ⟨v, hv, hva⟩ := needDisplacement_ok ha
    simp [decode, decodeBody, length, embeddedSetting, embedded, Agrees, packs, sameValue,
      Fields.ofList, unsigned, signed, hv, hva, hw, hwc]
  case bitShort =>
    obtain ⟨w, hw, hwc⟩ := checkEmbedded_ok he rfl
    obtain ⟨a, ha, hbody⟩ := Except.bind_eq_ok h
    cases hbody
    obtain ⟨v, hv, hva⟩ := needByte_ok ha
    simp [decode, decodeBody, length, embeddedSetting, embedded, Agrees, packs, sameValue,
      Fields.ofList, unsigned, hv, hva, hw, hwc]
  case trap =>
    obtain ⟨t, ht, hbody⟩ := Except.bind_eq_ok h
    cases hbody
    obtain ⟨v, hv, rfl, hle, -⟩ := need_ok ht
    have h8 : (v.asUInt).toUInt8.toNat < 128 := by
      have := UInt32.le_iff_toNat_le.mp hle; simp at this ⊢; omega
    obtain ⟨h1, h2⟩ := trap_bits h8
    have hmod : v.asUInt % 256 = v.asUInt := by
      have := UInt32.le_iff_toNat_le.mp hle
      rw [← UInt32.toNat_inj]; simp at this ⊢; omega
    simp [decode, decodeBody, length, embeddedSetting, embedded, Agrees, packs, sameValue,
      Fields.ofList, unsigned, hv, h1, h2, hmod]
  case atomic =>
    obtain ⟨p, hp, hbody⟩ := Except.bind_eq_ok h
    cases hbody
    obtain ⟨v, w, hv, hent, hw, hwr, h1, h4⟩ := needSub_ok hp
    obtain ⟨hlo, hsub, hr⟩ := subByte_decode p.1 h1 h4
    simp [decode, decodeBody, length, embeddedSetting, embedded, Agrees, packs, sameValue,
      Fields.ofList, decodeSub, hv, hw, hwr, hlo, hsub, hr, hent]
  case extReg =>
    obtain ⟨p, hp, hbody⟩ := Except.bind_eq_ok h
    obtain ⟨m, hm, hbody⟩ := Except.bind_eq_ok hbody
    cases hbody
    obtain ⟨v, w, hv, hent, hw, hwr, h1, h4⟩ := needSub_ok hp
    obtain ⟨t, ht, htm, hm'⟩ := needNibble_ok hm
    obtain ⟨hlo, hsub, hr⟩ := subByte_or_decode p.1 h1 h4 hm'
    generalize subByte p.1 p.2 ||| m = x at hlo hsub hr
    simp [decode, decodeBody, length, embeddedSetting, embedded, Agrees, packs, sameValue,
      Fields.ofList, decodeSub, Except.map, unsigned, hv, hw, hwr, hlo, hsub, hr, hent, ht, htm]
  case data3OrReg =>
    obtain ⟨n, hn, hbody⟩ := Except.bind_eq_ok h
    obtain ⟨t, ht, htn, hn'⟩ := needNibble_ok hn
    cases hmode : g.get? .mode0 with
    | none => simp [hmode] at hbody
    | some mode =>
      simp only [hmode] at hbody
      obtain ⟨m, hm, hbody⟩ := Except.bind_eq_ok hbody
      cases hbody
      have htext : g.text .mode0 = mode.asText := by simp [Fields.text, hmode]
      unfold needModeBits at hm
      split_ifs at hm with h3 hr hri
      · obtain ⟨d, hd, rfl⟩ := Except.map_eq_ok hm
        obtain ⟨u, hu, rfl, hle, -⟩ := need_ok hd
        have h8 : u.asUInt.toUInt8.toNat < 8 := by
          have := UInt32.le_iff_toNat_le.mp hle; simp at this ⊢; omega
        obtain ⟨htag, h7⟩ := data3_bits h8
        have hhi := hi_nibbles hn' (by omega : u.asUInt.toUInt8.toNat < 16)
        have hlo := lo_nibbles hn' (by omega : u.asUInt.toUInt8.toNat < 16)
        have hu8 := toUInt8_toUInt32_of_le (UInt32.le_trans hle (by decide : (7 : UInt32) ≤ 255))
        generalize n <<< 4 ||| u.asUInt.toUInt8 = x at hhi hlo
        generalize u.asUInt.toUInt8 = k at htag h7 hlo hu8
        simp [decode, decodeBody, length, embeddedSetting, embedded, Agrees, packs, sameValue,
          Fields.ofList, unsigned, tag_lo x, and_seven_lo x, hhi, hlo, htag, h7, hu8, hu, ht, htn,
          hmode, htext, h3]
      · obtain ⟨d, hd, rfl⟩ := Except.map_eq_ok hm
        obtain ⟨u, hu, rfl, hle, -⟩ := need_ok hd
        have h4 : u.asUInt.toUInt8.toNat < 4 := by
          have := UInt32.le_iff_toNat_le.mp hle; simp at this ⊢; omega
        obtain ⟨h16, htag, hbits⟩ := reg_bits h4
        have hhi := hi_nibbles hn' h16
        have hlo := lo_nibbles hn' h16
        have hu8 := toUInt8_toUInt32_of_le (UInt32.le_trans hle (by decide : (3 : UInt32) ≤ 255))
        generalize n <<< 4 ||| (u.asUInt.toUInt8 ||| 8) = x at hhi hlo
        generalize u.asUInt.toUInt8 = k at htag hbits hlo hu8 h16
        simp [decode, decodeBody, length, embeddedSetting, embedded, Agrees, packs, sameValue,
          Fields.ofList, unsigned, tag_lo x, and_three_lo x, hhi, hlo, htag, hbits, hu8, hu, ht,
          htn, hmode, htext, hr, Mode.reg, Mode.data3]
      · obtain ⟨d, hd, rfl⟩ := Except.map_eq_ok hm
        obtain ⟨u, hu, rfl, hle, -⟩ := need_ok hd
        have h4 : u.asUInt.toUInt8.toNat < 4 := by
          have := UInt32.le_iff_toNat_le.mp hle; simp at this ⊢; omega
        obtain ⟨h16, htag, hbits⟩ := regInc_bits h4
        have hhi := hi_nibbles hn' h16
        have hlo := lo_nibbles hn' h16
        have hu8 := toUInt8_toUInt32_of_le (UInt32.le_trans hle (by decide : (3 : UInt32) ≤ 255))
        generalize n <<< 4 ||| (u.asUInt.toUInt8 ||| 12) = x at hhi hlo
        generalize u.asUInt.toUInt8 = k at htag hbits hlo hu8 h16
        simp [decode, decodeBody, length, embeddedSetting, embedded, Agrees, packs, sameValue,
          Fields.ofList, unsigned, tag_lo x, and_three_lo x, hhi, hlo, htag, hbits, hu8, hu, ht,
          htn, hmode, htext, hri, Mode.regInc, Mode.data3]
  case extImm =>
    obtain ⟨⟨sel, r⟩, hp, hbody⟩ := Except.bind_eq_ok h
    obtain ⟨v, w, hv, hent, hw, hwr, h1, h4⟩ := needSub_ok hp
    obtain ⟨hlo, hsub, hr⟩ := subByte_decode sel h1 h4
    have hpage : isPageMnemonic (g.text .mnemonic) = isPageSub sel := by
      simp only [Fields.text, hv, Option.map_some, Option.getD_some]
      exact SubTable.isPageMnemonic_of_entry hent
    by_cases hps : isPageSub sel = true
    · simp only [hps, if_true] at hbody
      obtain ⟨q, hq, hbody⟩ := Except.bind_eq_ok hbody
      cases hbody
      obtain ⟨u, hu, rfl, hle, -⟩ := need_ok hq
      obtain ⟨h252, hval⟩ := page_decode hle
      generalize subByte sel r = x at hlo hsub hr
      generalize u.asUInt.toUInt8 = b2 at hval
      generalize (u.asUInt >>> 8).toUInt8 = b3 at h252 hval
      simp at hval
      simp [decode, decodeBody, length, embeddedSetting, embedded, Agrees, packs, sameValue,
        Fields.ofList, decodeSub, hv, hw, hwr, hlo, hsub, hr, hent, hps, hpage, h252, hval, hu]
    · simp only [hps] at hbody
      obtain ⟨q, hq, hbody⟩ := Except.bind_eq_ok hbody
      cases hbody
      obtain ⟨u, hu, rfl, hle, -⟩ := need_ok hq
      generalize subByte sel r = x at hlo hsub hr
      simp [decode, decodeBody, length, embeddedSetting, embedded, Agrees, packs, sameValue,
        Fields.ofList, decodeSub, unsigned, hv, hw, hwr, hlo, hsub, hr, hent, hps, hpage, hu,
        mod_256_of_le hle]

/-- An encoder writes `00h` as the unread last byte of `RR ## xx`, so its bytes are canonical. -/
theorem canonical_of_encode {l : Layout} {op : UInt8} {g : Fields} {b : List UInt8}
    (h : l.encode op g = .ok b) : l.canonical b = b := by
  unfold canonical
  split_ifs with hl
  · subst hl
    obtain ⟨u, -, h⟩ := Except.bind_eq_ok h
    obtain ⟨body, hbody, hb⟩ := Except.bind_eq_ok h
    cases hb
    obtain ⟨r, -, hbody⟩ := Except.bind_eq_ok hbody
    obtain ⟨d, -, hbody⟩ := Except.bind_eq_ok hbody
    cases hbody
    rfl
  · rfl

/-- Encoding writes the layout's length of bytes, opcode byte first; they decode to fields
that agree with the map and encode to the same bytes again. -/
theorem decode_encode {l : Layout} {op : UInt8} {g : Fields} {b : List UInt8}
    (h : l.encode op g = .ok b) :
    b.length = l.length ∧ b.head? = some op ∧
      ∃ fs, l.decode b = .ok fs ∧ l.Agrees g fs ∧ l.encode op fs = .ok b := by
  obtain ⟨u, he, hrest⟩ := Except.bind_eq_ok h
  obtain ⟨body, hbody, hb⟩ := Except.bind_eq_ok hrest
  cases hb
  obtain ⟨hlen, fs, hdec, hagree⟩ := decode_encodeBody l op g body he hbody
  refine ⟨hlen, rfl, fs, hdec, hagree, ?_⟩
  rw [encode_of_decode hdec, List.take_of_length_le (Nat.le_of_eq hlen), canonical_of_encode h]

/-- What `encode` writes is the layout's length. -/
theorem length_encode {l : Layout} {op : UInt8} {g : Fields} {b : List UInt8}
    (h : l.encode op g = .ok b) : b.length = l.length :=
  (decode_encode h).1

/-! ## §4. The round trip -/

/-- Every layout's codec round-trips. Decoding an instruction with opcode byte `op` and
encoding its fields gives back the instruction's bytes, with `00h` for the unread byte of
`RR ## xx`. Encoding any field map with `op` writes `l.length` bytes starting with `op`,
which decode to fields agreeing with the map and encode to the same bytes again. -/
theorem codec_roundTrip (l : Layout) (op : UInt8) :
    (∀ rest fs, l.decode (op :: rest) = .ok fs →
      l.encode op fs = .ok (l.canonical ((op :: rest).take l.length))) ∧
    (∀ g b, l.encode op g = .ok b →
      b.length = l.length ∧ b.head? = some op ∧
        ∃ fs, l.decode b = .ok fs ∧ l.Agrees g fs ∧ l.encode op fs = .ok b) :=
  ⟨fun _ _ h => encode_of_decode h, fun _ _ h => decode_encode h⟩

/-- `MOVB RL0, #34h` read from `E7 F0 34 12` is written back as `E7 F0 34 00`: the unread last
byte of `RR ## xx` comes back as `00h`. -/
theorem movb_roundTrip_clears_last_byte :
    ∃ fs, Layout.regData8.decode [0xE7, 0xF0, 0x34, 0x12] = .ok fs ∧
      Layout.regData8.encode 0xE7 fs = .ok [0xE7, 0xF0, 0x34, 0x00] :=
  ⟨_, rfl, (codec_roundTrip .regData8 0xE7).1 [0xF0, 0x34, 0x12] _ rfl⟩

end Layout

end C166Codec
