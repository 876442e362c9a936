import C166Codec.Proofs.CodecRoundTrip
/-!
# What a layout's encoder needs

`Layout.encode` packs a field map into bytes or refuses it. `Layout.needs` lists what the
encoder of each layout asks of the map, as data:

* a packed field is set, is no negative signed value, and fits its bits (`Need.atMost`);
* the field kept in the opcode byte equals the opcode's high nibble (`Need.embedded`);
* the displacement lies in -128..127, the mode of a data-or-register byte is known, the
  mnemonic is one of the sub-opcode table's, the ext range is 1 to 4, and an ext instruction
  has a page or a segment as its mnemonic asks.

Main statement, `Layout.encode_ok_iff`: the encoder succeeds exactly when every need holds.
Decoded fields meet every need (`Layout.needs_of_decode`), since encoding them gives back the
instruction's bytes.
-/

namespace C166Codec

/-- Field `f` is set, is no negative signed value, and is at most `max`: what `need` takes. -/
def Fields.Within (fs : Fields) (f : Field) (max : UInt32) : Prop :=
  ∃ v, fs.get? f = some v ∧ ¬ (v.isSigned = true ∧ v.asInt < 0) ∧ v.asUInt ≤ max

namespace Layout

/-- A requirement that a layout's encoder makes of a field map. -/
inductive Need where
  /-- The field is set, is no negative signed value, and is at most `max`. -/
  | atMost (f : Field) (max : UInt32)
  /-- The field fits a nibble and equals the high nibble of the opcode byte. -/
  | embedded (f : Field)
  /-- The displacement is set and lies in -128..127. -/
  | displacement
  /-- The data-or-register mode is known, with its three-bit number or two-bit register. -/
  | mode
  /-- The mnemonic is one of the sub-opcode table's. -/
  | sub (t : SubTable)
  /-- The ext range is set and lies in 1..4. -/
  | range
  /-- A ten-bit page for `extp` and `extpr`, an eight-bit segment for the other ext mnemonics. -/
  | pageOrSegment
  deriving DecidableEq, Repr

/-- Whether a field map meets a need, for opcode byte `op`. -/
def Need.Holds (op : UInt8) (fs : Fields) : Need → Prop
  | .atMost f max => fs.Within f max
  | .embedded f => fs.Within f 15 ∧ fs.uint f = (hi op).toUInt32
  | .displacement => ∃ v, fs.get? .relative0 = some v ∧ -128 ≤ v.asInt ∧ v.asInt ≤ 127
  | .mode =>
    fs.text .mode0 = Mode.data3 ∧ fs.Within .data0 7 ∨
      (fs.text .mode0 = Mode.reg ∨ fs.text .mode0 = Mode.regInc) ∧ fs.Within .register1 3
  | .sub t => (t.select? (fs.text .mnemonic)).isSome
  | .range => ∃ v, fs.get? .irange0 = some v ∧ 1 ≤ v.asUInt ∧ v.asUInt ≤ 4
  | .pageOrSegment =>
    if isPageMnemonic (fs.text .mnemonic) then fs.Within .page0 0x3FF else fs.Within .segment0 0xFF

/-- What the encoder of a layout asks of a field map, in the order it packs the fields. -/
def needs (l : Layout) : List Need :=
  (l.embedded.map .embedded).toList ++
    match l with
    | .nm | .mn => [.atMost .register0 15, .atMost .register1 15]
    | .n0 | .nn => [.atMost .register0 15]
    | .dataN => [.atMost .data0 15, .atMost .register0 15]
    | .data3OrReg => [.atMost .register0 15, .mode]
    | .condRel | .rel => [.displacement]
    | .bitShort => [.atMost .bitoff0 255]
    | .condReg => [.atMost .condition0 15, .atMost .register0 15]
    | .reg => [.atMost .register0 255]
    | .const | .complemented => []
    | .trap => [.atMost .trap0 127]
    | .atomic => [.sub .atomic, .range]
    | .extReg => [.sub .ext, .range, .atMost .register0 15]
    | .extImm => [.sub .ext, .range, .pageOrSegment]
    | .regMem => [.atMost .register0 255, .atMost .address0 65535]
    | .regData16 => [.atMost .register0 255, .atMost .data0 65535]
    | .regData8 => [.atMost .register0 255, .atMost .data0 255]
    | .bitfield | .bitfieldH => [.atMost .bitoff0 255, .atMost .mask0 255, .atMost .data0 255]
    | .bitPair =>
      [.atMost .bitoff0 255, .atMost .bitoff1 255, .atMost .bit0 15, .atMost .bit1 15]
    | .bitRel => [.atMost .bitoff0 255, .displacement, .atMost .bit0 15]
    | .fnMem | .zeroNMem => [.atMost .register0 15, .atMost .address0 65535]
    | .fnData16 => [.atMost .register0 15, .atMost .data0 65535]
    | .nmData16 => [.atMost .register0 15, .atMost .register1 15, .atMost .data0 65535]
    | .condCaddr => [.atMost .condition0 15, .atMost .address0 65535]
    | .segCaddr => [.atMost .segment0 255, .atMost .address0 65535]

/-! ## §1. One reader at a time -/

variable {fs : Fields} {f : Field} {max : UInt32} {op : UInt8}

theorem uint_of_get? {v : Value} (h : fs.get? f = some v) : fs.uint f = v.asUInt := by
  simp [Fields.uint, h]

/-- A field within its bound is what `need` reads. -/
theorem need_of_within (h : fs.Within f max) : need fs f max = .ok (fs.uint f) := by
  obtain ⟨v, hv, hs, hle⟩ := h
  have hc : ((v.isSigned && decide (v.asInt < 0)) || decide (max < v.asUInt)) = false := by
    simp only [Bool.or_eq_false_iff, Bool.and_eq_false_imp, decide_eq_false_iff_not]
    exact ⟨fun h' => fun hlt => hs ⟨h', hlt⟩, UInt32.not_lt.mpr hle⟩
  simp only [need, hv, gt_iff_lt, hc, uint_of_get? hv]
  rfl

/-- What `need` reads is within its bound. -/
theorem within_of_need {n : UInt32} (h : need fs f max = .ok n) :
    fs.Within f max ∧ fs.uint f = n := by
  obtain ⟨v, hv, rfl, hle, hs⟩ := need_ok h
  exact ⟨⟨v, hv, hs, hle⟩, uint_of_get? hv⟩

theorem within_of_needNibble {x : UInt8} (h : needNibble fs f = .ok x) : fs.Within f 15 := by
  obtain ⟨n, hn, -⟩ := Except.map_eq_ok h
  exact (within_of_need hn).1

theorem within_of_needByte {x : UInt8} (h : needByte fs f = .ok x) : fs.Within f 255 := by
  obtain ⟨n, hn, -⟩ := Except.map_eq_ok h
  exact (within_of_need hn).1

theorem within_of_needWord {ws : List UInt8} (h : needWord fs f = .ok ws) :
    fs.Within f 65535 := by
  obtain ⟨n, hn, -⟩ := Except.map_eq_ok h
  exact (within_of_need hn).1

theorem within_of_needNibbles {g : Field} {x : UInt8} (h : needNibbles fs f g = .ok x) :
    fs.Within f 15 ∧ fs.Within g 15 := by
  obtain ⟨a, b, ha, hb, -⟩ := needNibbles_ok h
  exact ⟨within_of_needNibble ha, within_of_needNibble hb⟩

/-- A displacement in range is what `needDisplacement` reads. -/
theorem needDisplacement_of_holds
    (h : ∃ v, fs.get? .relative0 = some v ∧ -128 ≤ v.asInt ∧ v.asInt ≤ 127) :
    needDisplacement fs = .ok (fs.int .relative0).toInt8.toUInt8 := by
  obtain ⟨v, hv, hlo, hhi⟩ := h
  have hc : (decide (v.asInt < -128) || decide (v.asInt > 127)) = false := by
    simp only [Bool.or_eq_false_iff, decide_eq_false_iff_not, gt_iff_lt]
    exact ⟨Int32.not_lt.mpr hlo, Int32.not_lt.mpr hhi⟩
  simp only [needDisplacement, hv, hc, Fields.int, Option.map_some, Option.getD_some]
  rfl

theorem holds_of_needDisplacement {x : UInt8} (h : needDisplacement fs = .ok x) :
    ∃ v, fs.get? .relative0 = some v ∧ -128 ≤ v.asInt ∧ v.asInt ≤ 127 := by
  unfold needDisplacement at h
  split at h
  · cases h
  · rename_i v hv
    dsimp only at h
    split at h
    · cases h
    · rename_i hc
      simp only [Bool.or_eq_true, decide_eq_true_eq, not_or, gt_iff_lt] at hc
      exact ⟨v, hv, Int32.not_lt.mp hc.1, Int32.not_lt.mp hc.2⟩

/-- A known mnemonic and a range in 1..4 are what `needSub` reads. -/
theorem needSub_of_holds {t : SubTable} {sel : Fin 4} (hs : t.select? (fs.text .mnemonic) = some sel)
    (hr : ∃ v, fs.get? .irange0 = some v ∧ 1 ≤ v.asUInt ∧ v.asUInt ≤ 4) :
    needSub t fs = .ok (sel, fs.uint .irange0) := by
  obtain ⟨v, hv, h1, h4⟩ := hr
  have hc : (decide (v.asUInt < 1) || decide (v.asUInt > 4)) = false := by
    simp only [Bool.or_eq_false_iff, decide_eq_false_iff_not, gt_iff_lt]
    exact ⟨UInt32.not_lt.mpr h1, UInt32.not_lt.mpr h4⟩
  simp only [needSub, hs, hv, hc, uint_of_get? hv]
  rfl

theorem holds_of_needSub {t : SubTable} {x : Fin 4 × UInt32} (h : needSub t fs = .ok x) :
    (∃ v, fs.get? .irange0 = some v ∧ 1 ≤ v.asUInt ∧ v.asUInt ≤ 4) ∧
      t.select? (fs.text .mnemonic) = some x.1 := by
  obtain ⟨sel, r⟩ := x
  obtain ⟨v, w, hv, hent, hw, rfl, h1, h4⟩ := needSub_ok h
  have hsel : t.select? (fs.text .mnemonic) = some sel := by
    simp only [Fields.text, hv, Option.map_some, Option.getD_some]
    exact SubTable.select?_of_entry hent
  exact ⟨⟨w, hw, h1, h4⟩, hsel⟩

/-- The sub-opcode selected for an ext mnemonic is odd exactly when the mnemonic takes a page. -/
theorem isPageSub_of_select? {mn : String} {sel : Fin 4} (h : SubTable.ext.select? mn = some sel) :
    isPageSub sel = isPageMnemonic mn :=
  (SubTable.isPageMnemonic_of_entry (SubTable.entry_of_select? h)).symm

/-- A known mode with its number or register is what `needModeBits` reads. -/
theorem needModeBits_ok_of_holds
    (h : fs.text .mode0 = Mode.data3 ∧ fs.Within .data0 7 ∨
      (fs.text .mode0 = Mode.reg ∨ fs.text .mode0 = Mode.regInc) ∧ fs.Within .register1 3) :
    ∃ x, needModeBits fs (fs.text .mode0) = .ok x := by
  rcases h with ⟨hm, hw⟩ | ⟨hm | hm, hw⟩
  · exact ⟨(fs.uint .data0).toUInt8, by simp [needModeBits, hm, need_of_within hw]⟩
  · exact ⟨(fs.uint .register1).toUInt8 ||| 8,
      by simp [needModeBits, hm, Mode.reg, Mode.data3, need_of_within hw]⟩
  · exact ⟨(fs.uint .register1).toUInt8 ||| 0xC,
      by simp [needModeBits, hm, Mode.regInc, Mode.reg, Mode.data3, need_of_within hw]⟩

theorem holds_of_needModeBits {x : UInt8} (h : needModeBits fs (fs.text .mode0) = .ok x) :
    fs.text .mode0 = Mode.data3 ∧ fs.Within .data0 7 ∨
      (fs.text .mode0 = Mode.reg ∨ fs.text .mode0 = Mode.regInc) ∧ fs.Within .register1 3 := by
  unfold needModeBits at h
  split at h
  · rename_i hm
    obtain ⟨n, hn, -⟩ := Except.map_eq_ok h
    exact .inl ⟨hm, (within_of_need hn).1⟩
  · split at h
    · rename_i _ hm
      obtain ⟨n, hn, -⟩ := Except.map_eq_ok h
      exact .inr ⟨.inl hm, (within_of_need hn).1⟩
    · split at h
      · rename_i _ _ hm
        obtain ⟨n, hn, -⟩ := Except.map_eq_ok h
        exact .inr ⟨.inr hm, (within_of_need hn).1⟩
      · cases h

/-- A field at the opcode's high nibble passes the embedded check. -/
theorem checkEmbedded_of_holds {l : Layout} (h : ∀ e, l.embedded = some e → (Need.embedded e).Holds op fs) :
    l.checkEmbedded op fs = .ok () := by
  unfold checkEmbedded
  split
  · rfl
  · rename_i e he
    obtain ⟨hw, heq⟩ := h e he
    simp [need_of_within hw, heq]

theorem holds_of_checkEmbedded {l : Layout} {e : Field} (h : l.checkEmbedded op fs = .ok ())
    (he : l.embedded = some e) : (Need.embedded e).Holds op fs := by
  unfold checkEmbedded at h
  rw [he] at h
  obtain ⟨n, hn, hc⟩ := Except.bind_eq_ok h
  obtain ⟨hw, rfl⟩ := within_of_need hn
  refine ⟨hw, ?_⟩
  by_contra hne
  simp [hne] at hc

/-! ## §2. The encoder succeeds when every need holds -/

/-- **A field map that meets every need of a layout is encoded.** -/
theorem encode_ok_of_needs {l : Layout} (h : ∀ n ∈ l.needs, n.Holds op fs) :
    ∃ b, l.encode op fs = .ok b := by
  have hemb : l.checkEmbedded op fs = .ok () := by
    apply checkEmbedded_of_holds
    intro e he
    exact h _ (by simp [needs, he])
  suffices hb : ∃ b, l.encodeBody op fs = .ok b by
    obtain ⟨b, hb⟩ := hb
    exact ⟨op :: b, by simp [encode, hemb, hb]⟩
  cases l <;> simp only [needs, embedded, Option.map_none, Option.map_some, Option.toList_none,
    Option.toList_some, List.nil_append, List.singleton_append, List.mem_cons, List.mem_nil_iff,
    or_false, forall_eq_or_imp, forall_eq, Need.Holds] at h
  -- the layouts that only read plain fields
  case nm | mn | n0 | nn | dataN | bitShort | condReg | reg | trap | regMem | regData16 | regData8
      | bitfield | bitfieldH | bitPair | fnMem | fnData16 | zeroNMem | nmData16 | condCaddr
      | segCaddr =>
    simp [encodeBody, needNibbles, needNibble, needByte, needWord, need_of_within, h]
  case const | complemented => simp [encodeBody]
  -- a displacement
  case condRel => simp [encodeBody, needDisplacement_of_holds h.2]
  case rel => simp [encodeBody, needDisplacement_of_holds h]
  case bitRel =>
    obtain ⟨h1, h2, h3⟩ := h
    simp [encodeBody, needByte, needNibble, need_of_within h1, need_of_within h3,
      needDisplacement_of_holds h2]
  -- the mode picks the bits after the register
  case data3OrReg =>
    obtain ⟨hr, hm⟩ := h
    obtain ⟨x, hx⟩ := needModeBits_ok_of_holds hm
    -- a known mode is a text, so the mode field is set
    obtain ⟨v, hv⟩ : ∃ v, fs.get? .mode0 = some v := by
      cases hget : fs.get? .mode0 with
      | some v => exact ⟨v, rfl⟩
      | none =>
        rcases hm with ⟨hm, -⟩ | ⟨hm | hm, -⟩ <;>
          simp [Fields.text, hget, Mode.data3, Mode.reg, Mode.regInc] at hm
    have ht : v.asText = fs.text .mode0 := by simp [Fields.text, hv]
    simp [encodeBody, needNibble, need_of_within hr, hv, ht, hx]
  -- the sub-opcode layouts
  case atomic =>
    obtain ⟨hs, hr⟩ := h
    obtain ⟨sel, hsel⟩ := Option.isSome_iff_exists.mp hs
    simp [encodeBody, needSub_of_holds hsel hr]
  case extReg =>
    obtain ⟨hs, hr, hn⟩ := h
    obtain ⟨sel, hsel⟩ := Option.isSome_iff_exists.mp hs
    simp [encodeBody, needSub_of_holds hsel hr, needNibble, need_of_within hn]
  case extImm =>
    obtain ⟨hs, hr, hp⟩ := h
    obtain ⟨sel, hsel⟩ := Option.isSome_iff_exists.mp hs
    -- an odd sub-opcode asks for a page, an even one for a segment
    have hpage := isPageSub_of_select? hsel
    by_cases hps : isPageMnemonic (fs.text .mnemonic) = true
    · simp only [hps, if_true] at hp
      simp [encodeBody, needSub_of_holds hsel hr, hpage, hps, need_of_within hp]
    · simp only [hps, if_false, Bool.false_eq_true] at hp
      simp [encodeBody, needSub_of_holds hsel hr, hpage, hps, need_of_within hp]

/-! ## §3. Every need holds when the encoder succeeds -/

/-- The goal that every need of a layout holds, written out as a conjunction. -/
theorem forall_needs_iff {l : Layout} :
    (∀ n ∈ l.needs, n.Holds op fs) ↔
      (∀ e, l.embedded = some e → (Need.embedded e).Holds op fs) ∧
        ∀ n ∈ l.needs.drop l.embedded.toList.length, n.Holds op fs := by
  cases l <;> simp [needs, embedded]

/-- **A field map that a layout encodes meets every need of the layout.** -/
theorem needs_of_encode {l : Layout} {b : List UInt8} (h : l.encode op fs = .ok b) :
    ∀ n ∈ l.needs, n.Holds op fs := by
  obtain ⟨u, he, hrest⟩ := Except.bind_eq_ok h
  obtain ⟨body, h, -⟩ := Except.bind_eq_ok hrest
  refine forall_needs_iff.mpr ⟨fun e hl => holds_of_checkEmbedded he hl, ?_⟩
  cases l <;> simp only [needs, embedded, Option.map_none, Option.map_some, Option.toList_none,
    Option.toList_some, List.length_nil, List.length_singleton, List.drop_zero, List.drop_one,
    List.nil_append, List.singleton_append, List.tail_cons, List.mem_cons, List.mem_nil_iff,
    or_false, forall_eq_or_imp, forall_eq, Need.Holds]
  -- one reader after the other, each leaving its field within bounds
  case nm | dataN | condReg =>
    obtain ⟨x, hx, -⟩ := Except.bind_eq_ok h
    exact within_of_needNibbles hx
  case mn =>
    obtain ⟨x, hx, -⟩ := Except.bind_eq_ok h
    exact (within_of_needNibbles hx).symm
  case n0 | nn =>
    obtain ⟨x, hx, -⟩ := Except.bind_eq_ok h
    exact within_of_needNibble hx
  case bitShort | reg =>
    obtain ⟨x, hx, -⟩ := Except.bind_eq_ok h
    exact within_of_needByte hx
  case condRel | rel =>
    obtain ⟨x, hx, -⟩ := Except.bind_eq_ok h
    exact holds_of_needDisplacement hx
  case const | complemented => exact fun _ h => h.elim
  case trap =>
    obtain ⟨x, hx, -⟩ := Except.bind_eq_ok h
    exact (within_of_need hx).1
  case regMem | regData16 | segCaddr =>
    obtain ⟨x, hx, h⟩ := Except.bind_eq_ok h
    obtain ⟨y, hy, -⟩ := Except.bind_eq_ok h
    exact ⟨within_of_needByte hx, within_of_needWord hy⟩
  case fnMem | fnData16 | zeroNMem | condCaddr =>
    obtain ⟨x, hx, h⟩ := Except.bind_eq_ok h
    obtain ⟨y, hy, -⟩ := Except.bind_eq_ok h
    exact ⟨within_of_needNibble hx, within_of_needWord hy⟩
  case regData8 =>
    obtain ⟨x, hx, h⟩ := Except.bind_eq_ok h
    obtain ⟨y, hy, -⟩ := Except.bind_eq_ok h
    exact ⟨within_of_needByte hx, within_of_needByte hy⟩
  case nmData16 =>
    obtain ⟨x, hx, h⟩ := Except.bind_eq_ok h
    obtain ⟨y, hy, -⟩ := Except.bind_eq_ok h
    exact ⟨(within_of_needNibbles hx).1, (within_of_needNibbles hx).2, within_of_needWord hy⟩
  case bitfield | bitfieldH =>
    obtain ⟨x, hx, h⟩ := Except.bind_eq_ok h
    obtain ⟨y, hy, h⟩ := Except.bind_eq_ok h
    obtain ⟨z, hz, -⟩ := Except.bind_eq_ok h
    first
      | exact ⟨within_of_needByte hx, within_of_needByte hy, within_of_needByte hz⟩
      | exact ⟨within_of_needByte hx, within_of_needByte hz, within_of_needByte hy⟩
  case bitPair =>
    obtain ⟨x, hx, h⟩ := Except.bind_eq_ok h
    obtain ⟨y, hy, h⟩ := Except.bind_eq_ok h
    obtain ⟨z, hz, -⟩ := Except.bind_eq_ok h
    exact ⟨within_of_needByte hx, within_of_needByte hy, (within_of_needNibbles hz).1,
      (within_of_needNibbles hz).2⟩
  case bitRel =>
    obtain ⟨x, hx, h⟩ := Except.bind_eq_ok h
    obtain ⟨y, hy, h⟩ := Except.bind_eq_ok h
    obtain ⟨z, hz, -⟩ := Except.bind_eq_ok h
    exact ⟨within_of_needByte hx, holds_of_needDisplacement hy, within_of_needNibble hz⟩
  case data3OrReg =>
    obtain ⟨x, hx, h⟩ := Except.bind_eq_ok h
    refine ⟨within_of_needNibble hx, ?_⟩
    -- the encoder reads the mode's text, which is the field's text
    cases hm : fs.get? .mode0 with
    | none => simp [hm] at h
    | some v =>
      simp only [hm] at h
      obtain ⟨y, hy, -⟩ := Except.bind_eq_ok h
      have ht : v.asText = fs.text .mode0 := by simp [Fields.text, hm]
      rw [ht] at hy
      exact holds_of_needModeBits hy
  case atomic =>
    obtain ⟨x, hx, -⟩ := Except.bind_eq_ok h
    obtain ⟨hr, hs⟩ := holds_of_needSub hx
    exact ⟨by simp [hs], hr⟩
  case extReg =>
    obtain ⟨x, hx, h⟩ := Except.bind_eq_ok h
    obtain ⟨y, hy, -⟩ := Except.bind_eq_ok h
    obtain ⟨hr, hs⟩ := holds_of_needSub hx
    exact ⟨by simp [hs], hr, within_of_needNibble hy⟩
  case extImm =>
    obtain ⟨⟨sel, r⟩, hx, h⟩ := Except.bind_eq_ok h
    obtain ⟨hr, hs⟩ := holds_of_needSub hx
    refine ⟨by simp [hs], hr, ?_⟩
    -- the sub-opcode's parity is the mnemonic's choice of page or segment
    rw [← isPageSub_of_select? hs]
    by_cases hp : isPageSub sel = true
    · simp only [hp, if_true] at h ⊢
      obtain ⟨y, hy, -⟩ := Except.bind_eq_ok h
      exact (within_of_need hy).1
    · simp only [hp, if_false, Bool.false_eq_true] at h ⊢
      obtain ⟨y, hy, -⟩ := Except.bind_eq_ok h
      exact (within_of_need hy).1

/-- **A layout encodes a field map exactly when the map meets every need of the layout.** -/
theorem encode_ok_iff (l : Layout) (op : UInt8) (fs : Fields) :
    (∃ b, l.encode op fs = .ok b) ↔ ∀ n ∈ l.needs, n.Holds op fs :=
  ⟨fun ⟨_, h⟩ => needs_of_encode h, encode_ok_of_needs⟩

/-- Decoded fields meet every need of their layout, since they encode to the instruction's
bytes again. -/
theorem needs_of_decode {l : Layout} {op : UInt8} {rest : List UInt8}
    (h : l.decode (op :: rest) = .ok fs) : ∀ n ∈ l.needs, n.Holds op fs :=
  needs_of_encode (encode_of_decode h)

/-- A decoded ext instruction carries a page exactly when its mnemonic takes one. -/
theorem has_page0_of_decode {code : List UInt8} (h : Layout.extImm.decode code = .ok fs) :
    fs.has .page0 = isPageMnemonic (fs.text .mnemonic) := by
  unfold decode at h
  split at h
  · cases h
  · dsimp only at h
    split at h
    · cases h
    · rename_i body hbody
      cases h
      generalize (code.take extImm.length).getD 1 0 = b1 at hbody
      generalize (code.take extImm.length).getD 2 0 = b2 at hbody
      generalize (code.take extImm.length).getD 3 0 = b3 at hbody
      simp only [decodeBody, embeddedSetting, embedded, List.nil_append] at hbody ⊢
      split at hbody
      · cases hbody
      · -- the sub-opcode names the mnemonic, and its parity says page or segment
        cases hname : SubTable.ext.entry (subOf b1) with
        | none => simp [decodeSub, hname] at hbody
        | some name =>
          have hpage := SubTable.isPageMnemonic_of_entry hname
          simp only [decodeSub, hname] at hbody
          by_cases hp : isPageSub (subOf b1) = true
          · simp only [hp, if_true, ne_eq, ite_not] at hbody
            split at hbody <;> cases hbody
            simp [Fields.ofList, Fields.has, Fields.text, hp, hpage]
          · simp only [hp, if_false, Bool.false_eq_true, ne_eq, ite_not] at hbody
            split at hbody <;> cases hbody
            simp [Fields.ofList, Fields.has, Fields.text, hp, hpage]

end Layout

end C166Codec
