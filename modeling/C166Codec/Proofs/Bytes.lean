import Mathlib.Data.FinEnum
import C166Codec.Encoding.Codec
/-!
# Byte facts behind the layout codecs

The codecs cut bytes into nibbles, two-bit sub-opcodes, mode tags and little-endian words.
This file collects what the round-trip proofs need about those cuts, in two kinds:

* facts over `Nat`: a nibble pair `a <<< 4 ||| b` is `a * 16 + b`, a word `l ||| h <<< 8` is
  `l + h * 256`; from these the high and low nibble of a packed byte and the bytes of a
  joined word come back;
* facts about every byte, checked by enumerating the 256 bytes with `decide`: the reserved
  patterns the decoder refuses are exactly the bytes the encoder never writes.

Main results: `Word.split_join`, `Word.join_split`, `Layout.hi_nibbles`, `Layout.lo_nibbles`,
`Layout.subByte_decode`, `Layout.page_decode`, `Layout.page_word`.
-/

namespace C166Codec

/-! ## §1. `Except` results -/

@[simp] theorem Except.ok_bind {ε α β : Type} (a : α) (f : α → Except ε β) :
    (Except.ok a : Except ε α) >>= f = f a := rfl

@[simp] theorem Except.error_bind {ε α β : Type} (e : ε) (f : α → Except ε β) :
    (Except.error e : Except ε α) >>= f = .error e := rfl

@[simp] theorem Except.pure_eq_ok {ε α : Type} (a : α) : (pure a : Except ε α) = .ok a := rfl

@[simp] theorem Except.map_ok {ε α β : Type} (f : α → β) (a : α) :
    (Except.ok a : Except ε α).map f = .ok (f a) := rfl

@[simp] theorem Except.map_error {ε α β : Type} (f : α → β) (e : ε) :
    (Except.error e : Except ε α).map f = .error e := rfl

/-- A result seen through `toOption` as a value is that value. -/
theorem Except.eq_ok_of_toOption {ε α : Type} {x : Except ε α} {a : α}
    (h : x.toOption = some a) : x = .ok a := by
  cases x <;> simp_all [Except.toOption]

theorem Except.bind_eq_ok {ε α β : Type} {x : Except ε α} {f : α → Except ε β} {b : β}
    (h : x >>= f = .ok b) : ∃ a, x = .ok a ∧ f a = .ok b := by
  cases x with
  | error e => cases h
  | ok a => exact ⟨a, rfl, h⟩

theorem Except.map_eq_ok {ε α β : Type} {x : Except ε α} {f : α → β} {b : β}
    (h : x.map f = .ok b) : ∃ a, x = .ok a ∧ f a = b := by
  cases x with
  | error e => cases h
  | ok a => exact ⟨a, rfl, by simpa [Except.map] using h⟩

/-! ## §2. Words -/

/-- A byte or-ed with a value shifted past it is a sum. -/
theorem or_shiftLeft_eq_add {a : Nat} (b : Nat) (ha : a < 2 ^ 8) : a ||| b <<< 8 = a + b * 256 := by
  rw [Nat.or_comm, ← Nat.shiftLeft_add_eq_or_of_lt ha, Nat.shiftLeft_eq]; omega

theorem Word.toNat_join (l h : UInt8) : (Word.join l h).toNat = l.toNat + h.toNat * 256 := by
  have hl := l.toNat_lt
  have hh := h.toNat_lt
  have hs : h.toNat <<< 8 < 65536 := by rw [Nat.shiftLeft_eq]; omega
  simp [Word.join]
  rw [Nat.mod_eq_of_lt hs]
  exact or_shiftLeft_eq_add h.toNat hl

/-- Splitting a joined word gives its two bytes back. -/
theorem Word.split_join (l h : UInt8) : Word.split (Word.join l h) = [l, h] := by
  have hj := Word.toNat_join l h
  have hl := l.toNat_lt
  have hh := h.toNat_lt
  simp only [Word.split, List.cons.injEq, and_true]
  constructor
  · apply UInt8.toNat_inj.mp; simp [hj]
  · apply UInt8.toNat_inj.mp; simp [hj]; omega

/-- Joining the two bytes of a word gives the word back. -/
theorem Word.join_split (w : UInt16) : Word.join w.toUInt8 (w >>> 8).toUInt8 = w := by
  have := w.toNat_lt
  apply UInt16.toNat_inj.mp
  rw [Word.toNat_join]
  simp [Nat.shiftRight_eq_div_pow]; omega

theorem toUInt8_toUInt32_of_le {n : UInt32} (h : n ≤ 255) : n.toUInt8.toUInt32 = n := by
  apply UInt32.toNat_inj.mp
  have : n.toNat ≤ 255 := UInt32.le_iff_toNat_le.mp h
  simp; omega

theorem mod_256_of_le {n : UInt32} (h : n ≤ 255) : n % 256 = n := by
  have := UInt32.le_iff_toNat_le.mp h
  rw [← UInt32.toNat_inj]; simp at this ⊢; omega

namespace Layout

/-! ## §3. Nibbles -/

theorem toNat_hi (b : UInt8) : (hi b).toNat = b.toNat / 16 := by
  simp [hi, Nat.shiftRight_eq_div_pow]

theorem toNat_lo (b : UInt8) : (lo b).toNat = b.toNat % 16 := by
  simp only [lo, UInt8.toNat_and]
  exact Nat.and_two_pow_sub_one_eq_mod b.toNat 4

theorem hi_lt (b : UInt8) : (hi b).toNat < 16 := by
  rw [toNat_hi]; have := b.toNat_lt; omega

theorem or_shiftLeft_four {a b : Nat} (hb : b < 16) : a <<< 4 ||| b = a * 16 + b := by
  rw [← Nat.shiftLeft_add_eq_or_of_lt (i := 4) hb, Nat.shiftLeft_eq]

/-- Two nibbles packed high then low are the number `a * 16 + b`. -/
theorem toNat_nibbles {a b : UInt8} (ha : a.toNat < 16) (hb : b.toNat < 16) :
    (a <<< 4 ||| b).toNat = a.toNat * 16 + b.toNat := by
  have : a.toNat <<< 4 < 256 := by rw [Nat.shiftLeft_eq]; omega
  simp [Nat.mod_eq_of_lt this, or_shiftLeft_four hb]

@[simp] theorem hi_nibbles {a b : UInt8} (ha : a.toNat < 16) (hb : b.toNat < 16) :
    hi (a <<< 4 ||| b) = a := by
  apply UInt8.toNat_inj.mp; rw [toNat_hi, toNat_nibbles ha hb]; omega

@[simp] theorem lo_nibbles {a b : UInt8} (ha : a.toNat < 16) (hb : b.toNat < 16) :
    lo (a <<< 4 ||| b) = b := by
  apply UInt8.toNat_inj.mp; rw [toNat_lo, toNat_nibbles ha hb]; omega

@[simp] theorem hi_shl {a : UInt8} (ha : a.toNat < 16) : hi (a <<< 4) = a := by
  simpa using hi_nibbles (b := 0) ha (by decide)

@[simp] theorem lo_shl {a : UInt8} (ha : a.toNat < 16) : lo (a <<< 4) = 0 := by
  simpa using lo_nibbles (b := 0) ha (by decide)

@[simp] theorem hi_of_lt {a : UInt8} (ha : a.toNat < 16) : hi a = 0 := by
  apply UInt8.toNat_inj.mp; rw [toNat_hi]; simp; omega

@[simp] theorem lo_of_lt {a : UInt8} (ha : a.toNat < 16) : lo a = a := by
  apply UInt8.toNat_inj.mp; rw [toNat_lo]; omega

@[simp] theorem hi_f0_or {a : UInt8} (ha : a.toNat < 16) : hi (240 ||| a) = 15 := by
  have h := hi_nibbles (a := 15) (by decide) ha
  rwa [show (15 : UInt8) <<< 4 = 240 from rfl] at h

@[simp] theorem lo_f0_or {a : UInt8} (ha : a.toNat < 16) : lo (240 ||| a) = a := by
  have h := lo_nibbles (a := 15) (by decide) ha
  rwa [show (15 : UInt8) <<< 4 = 240 from rfl] at h

/-! ## §4. Byte patterns, by enumeration

Each statement below is about one byte (or a byte and a small parameter) and is checked over
all of them. -/

section Enumerated

set_option maxRecDepth 8000

@[simp] theorem not_hi_gt (b : UInt8) : ¬ 15 < (hi b).toUInt32 := by revert b; decide
@[simp] theorem not_lo_gt (b : UInt8) : ¬ 15 < (lo b).toUInt32 := by revert b; decide
@[simp] theorem not_byte_gt (b : UInt8) : ¬ 255 < b.toUInt32 := by revert b; decide
@[simp] theorem hi_shl_or_lo (b : UInt8) : (hi b <<< 4) ||| lo b = b := by revert b; decide
@[simp] theorem signed_not_lt (b : UInt8) : ¬ b.toInt8.toInt32 < -128 := by revert b; decide
@[simp] theorem signed_not_gt (b : UInt8) : ¬ 127 < b.toInt8.toInt32 := by revert b; decide

theorem hi_shl_of_lo_eq_zero {b : UInt8} (h : lo b = 0) : hi b <<< 4 = b := by
  revert h; revert b; decide

theorem lo_shl_or_lo_of_eq {b : UInt8} (h : hi b = lo b) : lo b <<< 4 ||| lo b = b := by
  revert h; revert b; decide

theorem or_lo_of_hi_eq_f {b : UInt8} (h : hi b = 15) : 240 ||| lo b = b := by
  revert h; revert b; decide

theorem lo_of_hi_eq_zero {b : UInt8} (h : hi b = 0) : lo b = b := by
  revert h; revert b; decide

/-- A byte with bit 0 clear holds a trap number below 128 in its top seven bits. -/
theorem trap_byte {b : UInt8} (h : b &&& 1 = 0) :
    ¬ (127 : UInt32) < b.toUInt32 >>> 1 ∧ (b.toUInt32 >>> 1).toUInt8 <<< 1 = b := by
  revert h; revert b; decide

theorem trap_bits {b : UInt8} (h : b.toNat < 128) : (b <<< 1) &&& 1 = 0 ∧ (b <<< 1) >>> 1 = b := by
  revert h; revert b; decide

/-- The mode tag in bits 2 and 3 below 2: bits 0 to 2 are a 3-bit immediate. -/
theorem data3_byte {b : UInt8} (h : b >>> 2 &&& 3 < 2) : hi b <<< 4 ||| b &&& 7 = b := by
  revert h; revert b; decide

/-- The mode tag 2: bits 0 and 1 are a register, written with the tag as `||| 8`. -/
theorem reg_byte {b : UInt8} (h : b >>> 2 &&& 3 = 2) : hi b <<< 4 ||| (b &&& 3 ||| 8) = b := by
  revert h; revert b; decide

/-- The mode tag 3: bits 0 and 1 are a register, written with the tag as `||| 12`. -/
theorem regInc_byte {b : UInt8} (h : ¬ b >>> 2 &&& 3 < 2) (h' : ¬ b >>> 2 &&& 3 = 2) :
    hi b <<< 4 ||| (b &&& 3 ||| 12) = b := by
  revert h h'; revert b; decide

@[simp] theorem data3_not_gt (b : UInt8) : ¬ (7 : UInt32) < b.toUInt32 &&& 7 := by revert b; decide
@[simp] theorem reg_not_gt (b : UInt8) : ¬ (3 : UInt32) < b.toUInt32 &&& 3 := by revert b; decide

theorem tag_lo (x : UInt8) : x >>> 2 &&& (3 : UInt8) = lo x >>> 2 &&& 3 := by
  revert x; decide

theorem and_seven_lo (x : UInt8) : x &&& (7 : UInt8) = lo x &&& 7 := by
  revert x; decide

theorem and_three_lo (x : UInt8) : x &&& (3 : UInt8) = lo x &&& 3 := by
  revert x; decide

theorem data3_bits {m : UInt8} (h : m.toNat < 8) : m >>> 2 &&& 3 < 2 ∧ m &&& 7 = m := by
  revert h; revert m; decide

theorem reg_bits {m : UInt8} (h : m.toNat < 4) :
    (m ||| 8).toNat < 16 ∧ (m ||| 8) >>> 2 &&& 3 = 2 ∧ (m ||| 8) &&& 3 = m := by
  revert h; revert m; decide

theorem regInc_bits {m : UInt8} (h : m.toNat < 4) :
    (m ||| 12).toNat < 16 ∧ (m ||| 12) >>> 2 &&& 3 = 3 ∧ (m ||| 12) &&& 3 = m := by
  revert h; revert m; decide

theorem high_bits_of_and {b : UInt8} (h : b &&& 252 = 0) : b.toNat < 4 := by
  revert h; revert b; decide

theorem low_two_bits {b : UInt8} (h : b.toNat < 4) : b &&& 252 = 0 ∧ b &&& 3 = b := by
  revert h; revert b; decide

theorem sub_byte_of_lo_eq_zero {b : UInt8} (h : lo b = 0) :
    subByte (subOf b) ((b.toUInt32 >>> 4 &&& 3) + 1) = b := by
  revert h; revert b; decide

theorem sub_byte_or_lo (b : UInt8) : subByte (subOf b) ((b.toUInt32 >>> 4 &&& 3) + 1) ||| lo b = b := by
  revert b; decide

@[simp] theorem irange_ne_zero (b : UInt8) : (b.toUInt32 >>> 4 &&& 3) + 1 ≠ 0 := by revert b; decide

@[simp] theorem irange_not_gt (b : UInt8) : ¬ (4 : UInt32) < (b.toUInt32 >>> 4 &&& 3) + 1 := by
  revert b; decide

theorem subOf_hi (x : UInt8) : subOf (hi x <<< 4) = subOf x := by
  revert x; decide

theorem irange_hi (x : UInt8) :
    ((hi x <<< 4).toUInt32 >>> 4 &&& (3 : UInt32)) = (x.toUInt32 >>> 4 &&& 3) := by
  revert x; decide

/-- The byte of a sub-opcode and a range from 1 to 4 reads back as both, with a zero low
nibble. -/
theorem subByte_decode (sel : Fin 4) {r : UInt32} (h1 : 1 ≤ r) (h4 : r ≤ 4) :
    lo (subByte sel r) = 0 ∧ subOf (subByte sel r) = sel ∧
      ((subByte sel r).toUInt32 >>> 4 &&& 3) + 1 = r := by
  have hr : r = 1 ∨ r = 2 ∨ r = 3 ∨ r = 4 := by
    have := UInt32.le_iff_toNat_le.mp h1
    have := UInt32.le_iff_toNat_le.mp h4
    simp only [UInt32.reduceToNat] at *
    rcases (by omega : r.toNat = 1 ∨ r.toNat = 2 ∨ r.toNat = 3 ∨ r.toNat = 4) with h | h | h | h
    all_goals simp [← UInt32.toNat_inj, h]
  rcases hr with rfl | rfl | rfl | rfl <;> revert sel <;> decide

end Enumerated

/-! ## §5. Sub-opcode bytes, pages and words -/

theorem nibbles_or_of_lo_eq_zero {b m : UInt8} (hb : lo b = 0) (hm : m.toNat < 16) :
    hi (b ||| m) = hi b ∧ lo (b ||| m) = m := by
  have hb' : b ||| m = hi b <<< 4 ||| m := by rw [hi_shl_of_lo_eq_zero hb]
  rw [hb']
  exact ⟨hi_nibbles (hi_lt b) hm, lo_nibbles (hi_lt b) hm⟩

/-- A register in the low nibble of a sub-opcode byte leaves the sub-opcode and the range as
they were. -/
theorem subByte_or_decode (sel : Fin 4) {r : UInt32} (h1 : 1 ≤ r) (h4 : r ≤ 4) {m : UInt8}
    (hm : m.toNat < 16) :
    lo (subByte sel r ||| m) = m ∧ subOf (subByte sel r ||| m) = sel ∧
      ((subByte sel r ||| m).toUInt32 >>> 4 &&& 3) + 1 = r := by
  obtain ⟨hlo, hsub, hr⟩ := subByte_decode sel h1 h4
  obtain ⟨hhi, hlo'⟩ := nibbles_or_of_lo_eq_zero hlo hm
  refine ⟨hlo', ?_, ?_⟩
  · rw [← subOf_hi, hhi, subOf_hi, hsub]
  · rw [← irange_hi, hhi, irange_hi, hr]

@[simp] theorem not_word_gt (l h : UInt8) : ¬ 65535 < (Word.join l h).toUInt32 := by
  have := Word.toNat_join l h
  have := l.toNat_lt
  have := h.toNat_lt
  simp [UInt32.lt_iff_toNat_lt]
  omega

/-- A page number below 1024, written as a low byte and a high byte, passes the decoder's
check on the high byte and reads back whole. -/
theorem page_decode {q : UInt32} (h : q ≤ 1023) :
    (q >>> 8).toUInt8 &&& 252 = 0 ∧
      q.toUInt8.toUInt32 ||| ((q >>> 8).toUInt8 &&& 3).toUInt32 <<< 8 = q := by
  have hq := UInt32.le_iff_toNat_le.mp h
  have hb : ((q >>> 8).toUInt8).toNat < 4 := by
    simp [Nat.shiftRight_eq_div_pow] at hq ⊢; omega
  obtain ⟨h1, h2⟩ := low_two_bits hb
  refine ⟨h1, ?_⟩
  rw [h2]
  apply UInt32.toNat_inj.mp
  simp [Nat.shiftRight_eq_div_pow] at hq ⊢
  have hs : (q.toNat / 256 % 256) <<< 8 < 4294967296 := by rw [Nat.shiftLeft_eq]; omega
  have ha : q.toNat % 256 < 2 ^ 8 := by omega
  rw [Nat.mod_eq_of_lt hs, or_shiftLeft_eq_add _ ha]
  omega

/-- The page the decoder reads from a low byte and a high byte with its top six bits clear
is below 1024 and is written back as the same two bytes. -/
theorem page_word {lo hi : UInt8} (h : hi &&& 252 = 0) :
    ¬ (1023 : UInt32) < lo.toUInt32 ||| (hi.toUInt32 &&& 3) <<< 8 ∧
      (lo.toUInt32 ||| (hi.toUInt32 &&& 3) <<< 8).toUInt8 = lo ∧
      ((lo.toUInt32 ||| (hi.toUInt32 &&& 3) <<< 8) >>> 8).toUInt8 = hi := by
  have hh := high_bits_of_and h
  have hl := lo.toNat_lt
  have hand : hi.toNat &&& 3 = hi.toNat := by
    rw [show (3 : Nat) = 2 ^ 2 - 1 from rfl, Nat.and_two_pow_sub_one_eq_mod]; omega
  have hs : hi.toNat <<< 8 < 4294967296 := by rw [Nat.shiftLeft_eq]; omega
  have hp : (lo.toUInt32 ||| (hi.toUInt32 &&& 3) <<< 8).toNat = lo.toNat + hi.toNat * 256 := by
    simp [hand]
    rw [Nat.mod_eq_of_lt hs]
    exact or_shiftLeft_eq_add hi.toNat hl
  refine ⟨?_, ?_, ?_⟩
  · simp only [UInt32.lt_iff_toNat_lt, hp]; simp; omega
  · apply UInt8.toNat_inj.mp; simp only [UInt32.toNat_toUInt8, hp]; omega
  · apply UInt8.toNat_inj.mp; simp only [UInt32.toNat_toUInt8, UInt32.toNat_shiftRight, hp]; simp; omega

end Layout

/-! ## §6. Sub-opcode tables -/

namespace SubTable

theorem entry_of_select? {t : SubTable} {mn : String} {i : Fin 4} (h : t.select? mn = some i) :
    t.entry i = some mn := by
  have hm := List.mem_of_getLast? h
  simp only [List.mem_filter, beq_iff_eq] at hm
  exact hm.2

section Enumerated

set_option maxRecDepth 8000

/-- The tables hold no repeated mnemonic, so selecting the mnemonic of an entry finds it. -/
theorem select?_of_entry {t : SubTable} {i : Fin 4} {mn : String} (h : t.entry i = some mn) :
    t.select? mn = some i := by
  revert h; revert mn; revert i; cases t <;> decide

theorem entry_ne_empty {t : SubTable} {i : Fin 4} {mn : String} (h : t.entry i = some mn) :
    mn ≠ "" := by
  revert h; revert mn; revert i; cases t <;> decide

/-- An ext mnemonic takes a page exactly when its sub-opcode is odd. -/
theorem isPageMnemonic_of_entry {i : Fin 4} {mn : String} (h : SubTable.ext.entry i = some mn) :
    isPageMnemonic mn = isPageSub i := by
  revert h; revert mn; revert i; decide

end Enumerated

end SubTable

end C166Codec
