import C166Codec.Proofs.OperandText
/-!
# The text of every operand slot reads back

`Render.operand` writes the operand of a slot from an instruction's fields, and
`Operand.parse` reads an operand's text. `Render.operandForm` is the form that each written
operand stands for, and the main statement, `Render.parse_operand`, says that the text of
every slot reads back as that form, keeping the text as the operand's raw text, when the
slot's fields are in range (`Render.ParseFits`: a bit number below 16, a displacement that
fits a signed byte, an ext range of one digit).

A written operand is also `Render.Standalone` (`Render.standalone_operand`): not empty, no
blank at either end, made only of letters, digits and the punctuation of the operand forms,
with as many `]` as `[`. A line of such operands splits back into them.

* §1 short addresses: the window maps between a short address and its word are inverses;
* §2 the characters of written numbers;
* §3 texts with a fixed front: immediates, displacements, names and indirect forms;
* §4 bit addresses;
* §5 the form of every slot, and the main statement;
* §6 standalone texts.
-/

namespace C166Codec

/-! ## §1. Short addresses and their words -/

namespace ShortAddress

theorem regBase_cases (extended : Bool) : regBase extended = 0xF000 ∨ regBase extended = 0xFE00 := by
  cases extended <;> simp [regBase]

theorem bitBase_cases (extended : Bool) : bitBase extended = 0xF100 ∨ bitBase extended = 0xFF00 := by
  cases extended <;> simp [bitBase]

theorem regAddress?_of_lt {s : UInt8} (hs : s < 0xF0) (extended : Bool) :
    regAddress? s extended = some (regBase extended + 2 * s.toNat).toUInt16 := by
  simp only [regAddress?, ge_iff_le, UInt8.not_le.mpr hs, if_false]

theorem regAddress?_of_ge {s : UInt8} (hs : ¬ s < 0xF0) (extended : Bool) :
    regAddress? s extended = none := by
  simp only [regAddress?, ge_iff_le, UInt8.not_lt.mp hs, if_true]

theorem bitAddress?_ram {s : UInt8} (hs : s < 0x80) (extended : Bool) :
    bitAddress? s extended = some (ramBitBase + 2 * s.toNat).toUInt16 := by
  simp only [bitAddress?, bitSpace, hs, if_true]

theorem bitAddress?_sfr {s : UInt8} (h1 : ¬ s < 0x80) (h2 : s < 0xF0) (extended : Bool) :
    bitAddress? s extended = some (bitBase extended + 2 * (s.toNat % 0x80)).toUInt16 := by
  simp only [bitAddress?, bitSpace, h1, h2, if_true, if_false]

/-- The register window maps a short address below F0h to its word and back. -/
theorem regShort?_regAddress? {s : UInt8} (hs : s < 0xF0) (extended : Bool) :
    ∃ a, regAddress? s extended = some a ∧ regShort? a extended = some s := by
  have hs' : s.toNat < 240 := by simpa [UInt8.lt_iff_toNat_lt] using hs
  have hb := regBase_cases extended
  refine ⟨_, regAddress?_of_lt hs extended, ?_⟩
  have hlt : regBase extended + 2 * s.toNat < 65536 := by omega
  simp only [regShort?, Nat.toUInt16, UInt16.toNat_ofNat', Nat.mod_eq_of_lt hlt]
  rw [if_neg (by omega), Option.some.injEq]
  apply UInt8.toNat_inj.mp
  simp

/-- A word that has a register short address is the word of that address, below F0h. -/
theorem regAddress?_of_regShort? {a : UInt16} {s : UInt8} {extended : Bool}
    (h : regShort? a extended = some s) : s < 0xF0 ∧ regAddress? s extended = some a := by
  have hb := regBase_cases extended
  have ha := a.toNat_lt
  simp only [regShort?] at h
  by_cases hout : a.toNat % 2 ≠ 0 ∨ a.toNat < regBase extended ∨
      a.toNat ≥ regBase extended + 0x1E0
  · rw [if_pos hout] at h; cases h
  rw [if_neg hout, Option.some.injEq] at h
  have hs : s.toNat = (a.toNat - regBase extended) / 2 := by
    rw [← h]; simp; omega
  have hF0 : s < 0xF0 := by rw [UInt8.lt_iff_toNat_lt, hs]; simp; omega
  refine ⟨hF0, ?_⟩
  rw [regAddress?_of_lt hF0, Option.some.injEq]
  apply UInt16.toNat_inj.mp
  simp; omega

/-- The bit window maps a short address below F0h to its word and back. -/
theorem bitShort?_bitAddress? {s : UInt8} (hs : s < 0xF0) (extended : Bool) :
    ∃ a, bitAddress? s extended = some a ∧ bitShort? a extended = some s := by
  have hs' : s.toNat < 240 := by simpa [UInt8.lt_iff_toNat_lt] using hs
  have hb := bitBase_cases extended
  have hrb : ramBitBase = 0xFD00 := rfl
  by_cases hr : s < 0x80
  · have hr' : s.toNat < 128 := by simpa [UInt8.lt_iff_toNat_lt] using hr
    refine ⟨_, bitAddress?_ram hr extended, ?_⟩
    have hlt : ramBitBase + 2 * s.toNat < 65536 := by omega
    simp only [bitShort?, Nat.toUInt16, UInt16.toNat_ofNat', Nat.mod_eq_of_lt hlt]
    rw [if_neg (by omega), if_pos (by omega), Option.some.injEq]
    apply UInt8.toNat_inj.mp
    simp
  · have hr' : 128 ≤ s.toNat := by simpa [UInt8.lt_iff_toNat_lt] using hr
    refine ⟨_, bitAddress?_sfr hr hs extended, ?_⟩
    have hlt : bitBase extended + 2 * (s.toNat % 128) < 65536 := by omega
    simp only [bitShort?, Nat.toUInt16, UInt16.toNat_ofNat', Nat.mod_eq_of_lt hlt]
    rw [if_neg (by omega), if_neg (by omega), if_pos (by omega), Option.some.injEq]
    apply UInt8.toNat_inj.mp
    simp; omega

/-- A word that has a bit short address is the word of that address, below F0h. The
arithmetic stays on `toNat` of the short address: unfolding it into the word's number would
make the kernel count down from FD00h. -/
theorem bitAddress?_of_bitShort? {a : UInt16} {s : UInt8} {extended : Bool}
    (h : bitShort? a extended = some s) : s < 0xF0 ∧ bitAddress? s extended = some a := by
  have hb := bitBase_cases extended
  have ha := a.toNat_lt
  have hrb : ramBitBase = 0xFD00 := rfl
  simp only [bitShort?] at h
  by_cases hodd : a.toNat % 2 ≠ 0
  · rw [if_pos hodd] at h; cases h
  rw [if_neg hodd] at h
  by_cases hram : ramBitBase ≤ a.toNat ∧ a.toNat < ramBitBase + 0x100
  · rw [if_pos hram, Option.some.injEq] at h
    have hs : s.toNat = (a.toNat - ramBitBase) / 2 := by
      rw [← h]; simp; omega
    have h80 : s < 0x80 := by rw [UInt8.lt_iff_toNat_lt, hs]; simp; omega
    refine ⟨by rw [UInt8.lt_iff_toNat_lt, hs]; simp; omega, ?_⟩
    rw [bitAddress?_ram h80, Option.some.injEq]
    apply UInt16.toNat_inj.mp
    simp; omega
  rw [if_neg hram] at h
  by_cases hsfr : bitBase extended ≤ a.toNat ∧ a.toNat < bitBase extended + 0xE0
  · rw [if_pos hsfr, Option.some.injEq] at h
    have hs : s.toNat = 0x80 + (a.toNat - bitBase extended) / 2 := by
      rw [← h]; simp; omega
    have hF0 : s < 0xF0 := by rw [UInt8.lt_iff_toNat_lt, hs]; simp; omega
    have h80 : ¬ s < 0x80 := by rw [UInt8.lt_iff_toNat_lt, hs]; simp
    refine ⟨hF0, ?_⟩
    rw [bitAddress?_sfr h80 hF0, Option.some.injEq]
    apply UInt16.toNat_inj.mp
    simp; omega
  · rw [if_neg hsfr] at h; cases h

end ShortAddress

/-! ## §2. The characters of written numbers -/

namespace Text

/-- A character of a written number: a hex digit, or the `h` after the digits. -/
def isNumberChar (c : Char) : Bool := isHexDigit c || c = 'h'

theorem toNat_lt_of_isNumberChar {c : Char} (h : isNumberChar c = true) : c.toNat < 128 := by
  simp only [isNumberChar, isHexDigit, isDigit, Bool.or_eq_true, Bool.and_eq_true,
    decide_eq_true_eq, char_le_iff, Char.reduceToNat] at h
  rcases h with ((h | h) | h) | rfl <;> first | omega | decide

/-- What a character of a written number is not, checked over the ASCII characters: a blank,
a gap, the punctuation of another operand form, a lower-case `r`. It is a part of a name. -/
theorem numberChar_table : ∀ n : Fin 128, isNumberChar (Char.ofNat n) = true →
    isWhite (Char.ofNat n) = false ∧ isGap (Char.ofNat n) = false ∧
      Char.ofNat n ∉ ['#', '[', ']', '+', '-', '.', '_'] ∧ isNamePart (Char.ofNat n) = true ∧
      lowerChar (Char.ofNat n) ≠ 'r' ∧
      (isDigit (Char.ofNat n) || isNameStart (Char.ofNat n)) = true := by
  decide

theorem numberChar_facts {c : Char} (h : isNumberChar c = true) :
    isWhite c = false ∧ isGap c = false ∧ c ∉ ['#', '[', ']', '+', '-', '.', '_'] ∧
      isNamePart c = true ∧ lowerChar c ≠ 'r' ∧ (isDigit c || isNameStart c) = true := by
  have := numberChar_table ⟨c.toNat, toNat_lt_of_isNumberChar h⟩
  simp only [Char.ofNat_toNat] at this
  exact this h

/-- The characters of a number written with `upperHex` and an `h`. -/
theorem isNumberChar_hexText (w n : Nat) : ∀ c ∈ (upperHex w n).toList ++ ['h'], isNumberChar c = true := by
  intro c hc
  rcases List.mem_append.mp hc with hc | hc
  · simp [isNumberChar, (upperHex_char hc).2.2.2.2.2.2]
  · simp [List.mem_singleton.mp hc, isNumberChar]

/-- The character of a decimal digit. -/
theorem isNumberChar_digit {d : Nat} (hd : d < 10) : ∀ c ∈ (toString d).toList, isNumberChar c = true := by
  intro c hc
  have hs : (toString d).toList = [Nat.digitChar d] := by simp [Nat.toDigits_of_lt_base hd]
  rw [hs, List.mem_singleton] at hc
  subst hc
  simp [isNumberChar, isHexDigit, (Literal.digitChar_decimal d hd).1]

end Text

/-! ## §3. Texts with a fixed front -/

namespace Operand

open Text

theorem skipGaps_of_head {cs : List Char} (h : ∀ c ∈ cs.head?, isGap c = false) :
    Lexeme.skipGaps cs = cs := by
  cases cs with
  | nil => rfl
  | cons c rest => simp [Lexeme.skipGaps, h c rfl]

/-- A text that starts with neither a blank nor `[` and does not end in a blank is read by
`parsePlain`. -/
theorem parse_plain {t : String} {c : Char} {rest : List Char} (hcs : t.toList = c :: rest)
    (hw : isWhite c = false) (hb : c ≠ '[') (hl : ∀ d ∈ t.toList.getLast?, isWhite d = false) :
    parse t = (parsePlain t (c :: rest)).map (⟨·, t⟩) := by
  rw [parse_of_trim (trim_eq_self (by simp [hcs, hw]) hl) hcs, if_neg hb]

/-- A text whose first character starts no name and is no `r` names no register. -/
theorem lookup?_of_head {t : String} {c : Char} {rest : List Char} (hcs : t.toList = c :: rest)
    (ht : trim t = t) (hn : isNameStart (upperChar c) = false) (hr : lowerChar c ≠ 'r') :
    Register.lookup? t = none := by
  refine lookup?_eq_none (by rw [ht, hcs]) hr (SpecialRegister.named?_of_not_isName ?_)
  simp [ht, upper, hcs, Lexeme.isName, hn]

variable {ds : List Char}

/-- The characters of a number start with no gap. -/
theorem skipGaps_of_numberChars (hd : ∀ c ∈ ds, isNumberChar c = true) :
    Lexeme.skipGaps ds = ds := by
  refine skipGaps_of_head fun c hc => (numberChar_facts (hd c ?_)).2.1
  exact List.mem_of_mem_head? hc

/-- A number's characters after one more character end in no blank. -/
theorem getLast_numberChars (hne : ds ≠ []) (hd : ∀ c ∈ ds, isNumberChar c = true) (c : Char) :
    ∀ d ∈ (String.ofList (c :: ds)).toList.getLast?, isWhite d = false := by
  intro d hd'
  obtain ⟨x, hx⟩ := Option.ne_none_iff_exists'.mp (List.getLast?_eq_none_iff.not.mpr hne)
  rw [String.toList_ofList, List.getLast?_cons, Option.mem_def, hx, Option.getD_some,
    Option.some.injEq] at hd'
  exact hd' ▸ (numberChar_facts (hd x (List.mem_of_getLast? hx))).1

/-- No `_` among a number's characters after a punctuation mark. -/
theorem underscore_not_mem {c : Char} (hc : c ≠ '_') (hd : ∀ c ∈ ds, isNumberChar c = true) :
    '_' ∉ c :: ds := by
  simp only [List.mem_cons, not_or]
  exact ⟨fun h => hc h.symm, fun h => (numberChar_facts (hd '_' h)).2.2.1 (by simp)⟩

/-- A number's characters after `#` read as an immediate of the number's value and width. -/
theorem parse_hashText {lit : Literal} (hne : ds ≠ []) (hd : ∀ c ∈ ds, isNumberChar c = true)
    (hlit : Literal.parse (String.ofList ds) = .ok lit) :
    parse (String.ofList ('#' :: ds)) =
      .ok ⟨.immediate lit.value lit.wide, String.ofList ('#' :: ds)⟩ := by
  have hcs : (String.ofList ('#' :: ds)).toList = '#' :: ds := String.toList_ofList
  have hl := getLast_numberChars hne hd '#'
  have ht : trim (String.ofList ('#' :: ds)) = String.ofList ('#' :: ds) :=
    trim_eq_self (by simp; decide) hl
  have hpat : immediatePattern? ('#' :: ds) = some ds := by
    have hall : ds.all (fun c => !isGap c) = true :=
      List.all_eq_true.mpr fun c hc => by simp [(numberChar_facts (hd c hc)).2.1]
    simp [immediatePattern?, skipGaps_of_numberChars hd, hall, hne]
  rw [parse_plain hcs (by decide) (by decide) hl,
    parsePlain_immediate (lookup?_of_head hcs ht (by decide) (by decide))
      (isConditionToken_of_not_mem (underscore_not_mem (by decide) hd)) hpat hlit]
  rfl

/-- A number's characters after `+` or `-` read as a displacement of the number's value,
negated after `-`. -/
theorem parse_signedText {c : Char} (hc : c = '+' ∨ c = '-') {lit : Literal} (hne : ds ≠ [])
    (hd : ∀ c ∈ ds, isNumberChar c = true) (hn : Lexeme.isNumber ds = true)
    (hlit : Literal.parse (String.ofList ds) = .ok lit) :
    parse (String.ofList (c :: ds)) =
      .ok ⟨.relative (if c = '-' then -(lit.value : Int) else lit.value), String.ofList (c :: ds)⟩ := by
  have hcs : (String.ofList (c :: ds)).toList = c :: ds := String.toList_ofList
  have hl := getLast_numberChars hne hd c
  have hfacts : isWhite c = false ∧ c ≠ '[' ∧ isNameStart (upperChar c) = false ∧
      lowerChar c ≠ 'r' ∧ c ≠ '_' ∧ c ≠ '#' ∧ c ≠ '.' := by
    rcases hc with rfl | rfl <;> decide
  obtain ⟨hw, hb, hs, hr, hu, hh, hdot⟩ := hfacts
  have ht : trim (String.ofList (c :: ds)) = String.ofList (c :: ds) :=
    trim_eq_self (by simp [hw]) hl
  have hdot' : '.' ∉ c :: ds := by
    simp only [List.mem_cons, not_or]
    exact ⟨fun h => hdot h.symm, fun h => (numberChar_facts (hd '.' h)).2.2.1 (by simp)⟩
  have hpat : relativePattern? (c :: ds) = some (decide (c = '-'), ds) := by
    have hpm : (c = '+' || c = '-') = true := by rcases hc with rfl | rfl <;> decide
    simp [relativePattern?, hpm, skipGaps_of_numberChars hd, hn]
  rw [parse_plain hcs hw hb hl,
    parsePlain_relative (lookup?_of_head hcs ht hs hr)
      (isConditionToken_of_not_mem (underscore_not_mem hu hd)) (immediatePattern?_of_head hh)
      (bitAddrPattern?_of_not_mem hdot') hpat hlit]
  simp only [decide_eq_true_eq]
  rfl

/-- `#`, a number written with `upperHex`, and `h`. -/
theorem hashText_eq (w n : Nat) :
    "#" ++ upperHex w n ++ "h" = String.ofList ('#' :: ((upperHex w n).toList ++ ['h'])) := by
  simp [← String.toList_inj]

/-- An immediate written with `upperHex` reads back as the literal of its digits. -/
theorem parse_hexImmediate {w n : Nat} {lit : Literal}
    (hlit : Literal.parse (upperHex w n ++ "h") = .ok lit) :
    parse ("#" ++ upperHex w n ++ "h") =
      .ok ⟨.immediate lit.value lit.wide, "#" ++ upperHex w n ++ "h"⟩ := by
  rw [hashText_eq]
  refine parse_hashText (by simp) (isNumberChar_hexText w n) ?_
  rwa [← Literal.upperHex_append_h]

/-- A two-digit immediate reads back as its value, narrow when it fits a byte. -/
theorem parse_imm2 {n : Nat} (hn : n < 16 ^ 8) :
    parse (Render.imm2 n) = .ok ⟨.immediate n (decide (256 ≤ n)), Render.imm2 n⟩ :=
  parse_hexImmediate (Literal.parse_upperHex_two hn)

/-- A four-digit immediate reads back as its value, wide. -/
theorem parse_imm4 {n : Nat} (hn : n < 16 ^ 8) :
    parse (Render.imm4 n) = .ok ⟨.immediate n true, Render.imm4 n⟩ :=
  parse_hexImmediate (Literal.parse_upperHex_wide (by decide) (by decide) hn)

/-- An immediate of one decimal digit reads back as its value, narrow. -/
theorem parse_decimalImmediate {v : Nat} (hv : v < 10) :
    parse ("#" ++ toString v) = .ok ⟨.immediate v false, "#" ++ toString v⟩ := by
  have hs : "#" ++ toString v = String.ofList ('#' :: (toString v).toList) := by
    simp [← String.toList_inj]
  have hne : (toString v).toList ≠ [] := by simp [Nat.toDigits_of_lt_base hv]
  rw [hs, parse_hashText hne (isNumberChar_digit hv) (by
    rw [String.ofList_toList]; exact Literal.parse_digit hv)]

/-- A number written with `upperHex` and `h` is a number literal. -/
theorem isNumber_hexText (w n : Nat) : Lexeme.isNumber ((upperHex w n).toList ++ ['h']) = true := by
  have hne := upperHex_ne_nil w n
  have hall : ∀ c ∈ (upperHex w n).toList, isHexDigit c = true :=
    fun c hc => (upperHex_char hc).2.2.2.2.2.2
  simp [Lexeme.isNumber, Lexeme.isHex, Literal.hexDigits?_append_h hne hall]

/-- A displacement in `-128..127` reads back as its value. -/
theorem parse_relative {r : Int32} (h1 : -128 ≤ r.toInt) (h2 : r.toInt ≤ 127) :
    parse (Render.relative r) = .ok ⟨.relative r.toInt, Render.relative r⟩ := by
  -- the text is a sign, the magnitude in two hex digits, and `h`
  have hsign : ∀ c : Char, ∀ m : Nat, m < 256 → (c = '+' ∨ c = '-') →
      parse (String.ofList (c :: ((upperHex 2 m).toList ++ ['h']))) =
        .ok ⟨.relative (if c = '-' then -(m : Int) else m),
          String.ofList (c :: ((upperHex 2 m).toList ++ ['h']))⟩ := by
    intro c m hm hc
    have hlit := Literal.parse_upperHex_two (n := m) (by omega)
    rw [Literal.upperHex_append_h] at hlit
    rw [parse_signedText hc (by simp) (isNumberChar_hexText 2 m) (isNumber_hexText 2 m) hlit]
  unfold Render.relative Render.signedHex
  by_cases hneg : r < 0
  · have hr : r.toInt < 0 := Int32.lt_iff_toInt_lt.mp hneg
    have hn : (-r).toInt = -r.toInt := by
      rw [Int32.toInt_neg]; exact Int.bmod_eq_of_le (by omega) (by omega)
    have ht : "-" ++ Text.upperHex 2 (-r).toInt.toNat ++ "h" =
        String.ofList ('-' :: ((upperHex 2 (-r.toInt).toNat).toList ++ ['h'])) := by
      simp [← String.toList_inj, hn]
    rw [if_pos hneg, if_neg (by omega), ht, hsign '-' _ (by omega) (.inr rfl)]
    simp only [if_true, Except.ok.injEq, Operand.mk.injEq, and_true]
    congr 1; omega
  · have hr : 0 ≤ r.toInt := by
      have := Int32.lt_iff_toInt_lt.not.mp hneg; simp at this; omega
    have ht : "+" ++ Text.upperHex 2 r.toInt.toNat ++ "h" =
        String.ofList ('+' :: ((upperHex 2 r.toInt.toNat).toList ++ ['h'])) := by
      simp [← String.toList_inj]
    rw [if_neg hneg, if_neg (by omega), ht, hsign '+' _ (by omega) (.inl rfl)]
    simp only [Except.ok.injEq, Operand.mk.injEq, and_true]
    rw [if_neg (by decide)]
    congr 1; omega

/-- The bank registers, their indirect forms and the conditions read back by name. -/
theorem parse_bankTable : ∀ n : Fin 16,
    parse (Register.wordName n) = .ok ⟨.register (.word n), Register.wordName n⟩ ∧
    parse (Register.byteName n) = .ok ⟨.register (.byte n), Register.byteName n⟩ ∧
    parse ("[" ++ Register.wordName n ++ "]") =
      .ok ⟨.indirect n, "[" ++ Register.wordName n ++ "]"⟩ ∧
    parse ("[" ++ Register.wordName n ++ "+]") =
      .ok ⟨.postInc n, "[" ++ Register.wordName n ++ "+]"⟩ ∧
    parse ("[-" ++ Register.wordName n ++ "]") =
      .ok ⟨.preDec n, "[-" ++ Register.wordName n ++ "]"⟩ ∧
    parse (Condition.name ⟨n⟩) = .ok ⟨.condition ⟨n⟩, Condition.name ⟨n⟩⟩ := by
  decide +kernel

/-- A special function register reads back by its name. -/
theorem parse_specialName {r : SpecialRegister} (hr : r ∈ SpecialRegister.table) :
    parse r.name = .ok ⟨.register (.special r), r.name⟩ := by
  obtain ⟨hname, -, -, -, hhead, hlast⟩ := SpecialRegister.name_facts hr
  obtain ⟨c, rest, hcs⟩ : ∃ c rest, r.name.toList = c :: rest := by
    cases h : r.name.toList with
    | nil => simp [h, Lexeme.isName] at hname
    | cons c rest => exact ⟨c, rest, rfl⟩
  have hc := hhead c (by simp [hcs])
  rw [parse_plain hcs hc.1 hc.2 hlast, parsePlain_register (SpecialRegister.lookup?_name r hr)]
  rfl

/-- A bank register's name is a register token followed by a blank. -/
theorem bankToken?_wordName : ∀ n : Fin 16, ∀ rest : List Char,
    Lexeme.bankToken? ((Register.wordName n).toList ++ ' ' :: rest) =
      some ((Register.wordName n).toList, ' ' :: rest) := by
  intro n rest
  fin_cases n <;> rfl

/-- A bank register's name reads as that word register in an indirect form. -/
theorem indexRegister_wordName : ∀ n : Fin 16,
    indexRegister (Register.wordName n).toList = .ok n := by
  decide +kernel

/-- The offset of an indexed operand runs to its `]`. -/
theorem takeWhile_numberChars (hd : ∀ c ∈ ds, isNumberChar c = true) :
    (ds ++ [']']).takeWhile (fun c => !isGap c && c != ']') = ds ∧
      (ds ++ [']']).dropWhile (fun c => !isGap c && c != ']') = [']'] := by
  induction ds with
  | nil => simp
  | cons c cs ih =>
    have hc := numberChar_facts (hd c List.mem_cons_self)
    have hp : (!isGap c && c != ']') = true := by
      have hb : c ≠ ']' := fun h => hc.2.2.1 (by simp [h])
      simp [hc.2.1, hb]
    obtain ⟨h1, h2⟩ := ih fun x hx => hd x (List.mem_cons_of_mem c hx)
    simp [hp, h1, h2]

theorem skipGaps_cons (c : Char) (cs : List Char) :
    Lexeme.skipGaps (c :: cs) = if isGap c then Lexeme.skipGaps cs else c :: cs := by
  simp only [Lexeme.skipGaps, List.dropWhile_cons]

theorem wordName_head (n : Nat) : ∃ rest, (Register.wordName n).toList = 'r' :: rest :=
  ⟨(toString (n % 16)).toList, by simp [Register.wordName]⟩

/-- An indexed operand: a bank register, ` + #`, a number and `]`. -/
theorem indexedPattern?_text (n : Fin 16) (hd : ∀ c ∈ ds, isNumberChar c = true)
    (hn : Lexeme.isNumber ds = true) :
    indexedPattern? ('[' :: ((Register.wordName n).toList ++ ' ' :: '+' :: ' ' :: '#' :: (ds ++ [']']))) =
      some ((Register.wordName n).toList, ds) := by
  obtain ⟨w, hw⟩ := wordName_head n
  have hskip : Lexeme.skipGaps ((Register.wordName n).toList ++ ' ' :: '+' :: ' ' :: '#' :: (ds ++ [']'])) =
      (Register.wordName n).toList ++ ' ' :: '+' :: ' ' :: '#' :: (ds ++ [']']) :=
    skipGaps_of_head (by rw [hw]; simp; decide)
  obtain ⟨h1, h2⟩ := takeWhile_numberChars hd
  have hnum : Lexeme.skipGaps (ds ++ [']']) = ds ++ [']'] := by
    cases ds with
    | nil => rfl
    | cons c cs => exact skipGaps_of_head (by simp [(numberChar_facts (hd c List.mem_cons_self)).2.1])
  unfold indexedPattern?
  have hgaps : isGap ' ' = true ∧ isGap '+' = false ∧ isGap '#' = false ∧ isGap ']' = false := by
    decide
  simp [Lexeme.expect, hskip, bankToken?_wordName, skipGaps_cons, hgaps, hnum, h1, h2, hn]

theorem closing_bracket (front ds : List Char) :
    front ++ ' ' :: '+' :: ' ' :: '#' :: (ds ++ [']']) =
      (front ++ ' ' :: '+' :: ' ' :: '#' :: ds) ++ [']'] := by
  simp

/-- An indexed operand `[rN + #XXXXh]` reads back as its word register and offset. -/
theorem parse_indexedText (n : Nat) {a : Nat} (ha : a < 16 ^ 8) :
    parse ("[" ++ Register.wordName n ++ " + #" ++ upperHex 4 a ++ "h]") =
      .ok ⟨.indexed (Fin.ofNat 16 n) a,
        "[" ++ Register.wordName n ++ " + #" ++ upperHex 4 a ++ "h]"⟩ := by
  have hW : Register.wordName n = Register.wordName (Fin.ofNat 16 n) := by
    rw [Fin.val_ofNat, Register.wordName_mod]
  have hcs : ("[" ++ Register.wordName n ++ " + #" ++ upperHex 4 a ++ "h]").toList =
      '[' :: ((Register.wordName (Fin.ofNat 16 n)).toList ++
        ' ' :: '+' :: ' ' :: '#' :: (((upperHex 4 a).toList ++ ['h']) ++ [']'])) := by
    simp [hW]
  have ht : trim ("[" ++ Register.wordName n ++ " + #" ++ upperHex 4 a ++ "h]") =
      "[" ++ Register.wordName n ++ " + #" ++ upperHex 4 a ++ "h]" :=
    trim_eq_self (by rw [hcs]; simp; decide) (by
      rw [hcs, closing_bracket, ← List.cons_append, List.getLast?_concat]; simp; decide)
  have hlit := Literal.parse_upperHex_wide (w := 4) (n := a) (by decide) (by decide) ha
  rw [Literal.upperHex_append_h] at hlit
  rw [parse_of_trim ht hcs, if_pos rfl]
  simp only [parseIndirect, indexedPattern?_text _ (isNumberChar_hexText 4 a) (isNumber_hexText 4 a),
    hlit, indexRegister_wordName]
  rfl

end Operand

/-! ## §4. Bit addresses -/

namespace Operand

open Text

/-- A text with a `.` in it is no name. -/
theorem isName_of_dot {cs : List Char} (h : '.' ∈ cs) : Lexeme.isName cs = false := by
  cases cs with
  | nil => rfl
  | cons c rest =>
    simp only [Lexeme.isName, Bool.and_eq_false_iff]
    rcases List.mem_cons.mp h with rfl | h
    · exact .inl (by decide)
    · exact .inr (List.all_eq_false.mpr ⟨'.', h, by decide⟩)

/-- No bank register number has a `.` in it. -/
theorem bankNumber?_of_dot {ds : List Char} (h : '.' ∈ ds) : Register.bankNumber? ds = none := by
  have hdot : Register.digitValue? '.' = none := by decide
  unfold Register.bankNumber?
  split <;> try simp only [List.mem_cons, List.not_mem_nil, or_false] at h
  all_goals first
    | rfl
    | (subst h; simp [hdot])
    | (rcases h with h | h <;> first | (simp at h) | (subst h; simp [hdot]))

/-- No bank register's name has a `.` in it. -/
theorem parseGeneral?_of_dot {s : String} (h : '.' ∈ (lower (trim s)).toList) :
    Register.parseGeneral? s = none := by
  unfold Register.parseGeneral?
  split
  all_goals first
    | rfl
    | (rename_i ds heq
       rw [heq] at h
       simp [bankNumber?_of_dot (by simpa using h)])

/-- The bit numbers below 16, written in decimal: one or two digits that fold back to the
number. -/
theorem bitDigits_table : ∀ b : Fin 16,
    ((toString b.val).toList.length = 1 ∨ (toString b.val).toList.length = 2) ∧
      (toString b.val).toList.all isDigit = true ∧
      (toString b.val).toList.foldl (fun n c => 10 * n + (c.toNat - 48)) 0 = b.val ∧
      (toString b.val).toList.getLast?.all (fun c => !isWhite c) = true ∧
      '.' ∉ (toString b.val).toList ∧ '_' ∉ (toString b.val).toList := by
  decide

/-- `word.bit`: a word without `.` that reads as a name or as a number starting with a
digit, a `.`, and the bit's digits. -/
theorem bitAddrPattern?_text {word ds : List Char} (hw : '.' ∉ word)
    (hd : (ds.length = 1 ∨ ds.length = 2) ∧ ds.all isDigit = true)
    (hok : (Lexeme.isName word || (Lexeme.isHex word && (word.head?.map isDigit).getD false)) = true) :
    bitAddrPattern? (word ++ '.' :: ds) = some (word, ds) := by
  have hp : ∀ a ∈ word, (a != '.') = true := fun a ha => by
    simp only [bne_iff_ne, ne_eq]; exact fun h => hw (h ▸ ha)
  have htake : (word ++ '.' :: ds).takeWhile (· != '.') = word := by
    rw [List.takeWhile_append_of_pos hp]; simp
  have hdrop : (word ++ '.' :: ds).dropWhile (· != '.') = '.' :: ds := by
    rw [List.dropWhile_append_of_pos hp]; simp
  simp only [bitAddrPattern?, htake, hdrop]
  simp [hd.1, hd.2, hok]

/-- **A bit address reads back as its word and bit**: a word that `parseBitWord` reads, a
`.`, and a bit number below 16 in decimal. The word starts with no blank, `[`, `#` or sign,
and holds no `.` or `_`. -/
theorem parse_bitList {word : List Char} {w : BitWord} {b : Nat} (hb : b < 16) (hne : word ≠ [])
    (hfirst : ∀ c ∈ word.head?, isWhite c = false ∧ c ∉ ['[', '#', '+', '-'])
    (hdot : '.' ∉ word) (hu : '_' ∉ word)
    (hok : (Lexeme.isName word || (Lexeme.isHex word && (word.head?.map isDigit).getD false)) = true)
    (hword : parseBitWord (String.ofList word) = .ok w) :
    parse (String.ofList (word ++ '.' :: (toString b).toList)) =
      .ok ⟨.bitAddr w ⟨b, hb⟩, String.ofList (word ++ '.' :: (toString b).toList)⟩ := by
  obtain ⟨hlen, hdig, hfold, hlast, hbdot, hbu⟩ := bitDigits_table ⟨b, hb⟩
  obtain ⟨c, rest, rfl⟩ := List.exists_cons_of_ne_nil hne
  obtain ⟨hcw, hcp⟩ := hfirst c rfl
  simp only [List.mem_cons, List.not_mem_nil, or_false, not_or] at hcp
  have hcs : (String.ofList (c :: rest ++ '.' :: (toString b).toList)).toList =
      c :: (rest ++ '.' :: (toString b).toList) := by simp
  have hl : ∀ d ∈ (String.ofList (c :: rest ++ '.' :: (toString b).toList)).toList.getLast?,
      isWhite d = false := by
    have hsplit : c :: rest ++ '.' :: (toString b).toList =
        (c :: rest ++ ['.']) ++ (toString b).toList := by simp
    have hne' : (toString b).toList ≠ [] :=
      List.ne_nil_of_length_pos (by rcases hlen with h | h <;> (simp only at h; omega))
    intro d hd
    rw [String.toList_ofList, hsplit, List.getLast?_append_of_ne_nil _ hne'] at hd
    simpa using (Option.all_eq_true _ _).mp hlast d hd
  have ht : trim (String.ofList (c :: rest ++ '.' :: (toString b).toList)) =
      String.ofList (c :: rest ++ '.' :: (toString b).toList) :=
    trim_eq_self (by simp [hcw]) hl
  have hdotmem : '.' ∈ c :: (rest ++ '.' :: (toString b).toList) := by simp
  -- neither a bank register nor a special function register: the text has a `.`
  have hreg : Register.lookup? (String.ofList (c :: rest ++ '.' :: (toString b).toList)) = none := by
    have hlow : '.' ∈ (lower (trim (String.ofList (c :: rest ++ '.' :: (toString b).toList)))).toList := by
      rw [ht, lower, String.toList_ofList, hcs]
      exact List.mem_map.mpr ⟨'.', hdotmem, by decide⟩
    have hup : Lexeme.isName (upper (trim (String.ofList (c :: rest ++ '.' :: (toString b).toList)))).toList = false := by
      rw [ht, upper, String.toList_ofList, hcs]
      exact isName_of_dot (List.mem_map.mpr ⟨'.', hdotmem, by decide⟩)
    unfold Register.lookup?
    rw [parseGeneral?_of_dot hlow, SpecialRegister.named?_of_not_isName hup]
    rfl
  have hund : '_' ∉ c :: (rest ++ '.' :: (toString b).toList) := by
    have : '_' ∉ c :: rest := hu
    simp only [List.mem_cons, List.mem_append, not_or] at this ⊢
    exact ⟨this.1, this.2, by decide, hbu⟩
  rw [parse_plain hcs hcw hcp.1 hl,
    parsePlain_bitAddr hreg (isConditionToken_of_not_mem hund) (immediatePattern?_of_head hcp.2.1)
      (by rw [← List.cons_append]; exact bitAddrPattern?_text hdot ⟨hlen, hdig⟩ hok)]
  unfold parseBitAddr
  rw [hword]
  simp only [bind, Except.bind, hfold, dif_pos hb]
  rfl

/-- The same for a word given as a text. -/
theorem parse_bitText {word : String} {w : BitWord} {b : Nat} (hb : b < 16)
    (hne : word.toList ≠ [])
    (hfirst : ∀ c ∈ word.toList.head?, isWhite c = false ∧ c ∉ ['[', '#', '+', '-'])
    (hdot : '.' ∉ word.toList) (hu : '_' ∉ word.toList)
    (hok : (Lexeme.isName word.toList ||
      (Lexeme.isHex word.toList && (word.toList.head?.map isDigit).getD false)) = true)
    (hword : parseBitWord word = .ok w) :
    parse (word ++ "." ++ toString b) = .ok ⟨.bitAddr w ⟨b, hb⟩, word ++ "." ++ toString b⟩ := by
  have hs : word ++ "." ++ toString b = String.ofList (word.toList ++ '.' :: (toString b).toList) := by
    simp [← String.toList_inj]
  have hword' : parseBitWord (String.ofList word.toList) = .ok w := by
    rw [String.ofList_toList]; exact hword
  rw [hs]
  exact parse_bitList hb hne hfirst hdot hu hok hword'

/-- The characters of a written number make a word of a bit address. -/
theorem wordOk_of_numberChars (hne : ds ≠ []) (hd : ∀ c ∈ ds, isNumberChar c = true)
    (hx : Lexeme.isHex ds = true) :
    (Lexeme.isName ds || (Lexeme.isHex ds && (ds.head?.map isDigit).getD false)) = true := by
  obtain ⟨c, rest, rfl⟩ := List.exists_cons_of_ne_nil hne
  have hc := (numberChar_facts (hd c List.mem_cons_self)).2.2.2.2.2
  cases hdig : isDigit c
  · have hstart : isNameStart c = true := by simpa [hdig] using hc
    have hparts : rest.all isNamePart = true :=
      List.all_eq_true.mpr fun x hx => (numberChar_facts (hd x (List.mem_cons_of_mem c hx))).2.2.2.1
    simp [Lexeme.isName, hstart, hparts]
  · simp [hx, hdig]

/-- A bank register's name as the word of a bit address. -/
theorem bankWord_table : ∀ n : Fin 16,
    parseBitWord (Register.wordName n) = .ok (.register (.word n)) ∧
      (Register.wordName n).toList.head? = some 'r' ∧
      '.' ∉ (Register.wordName n).toList ∧ '_' ∉ (Register.wordName n).toList ∧
      Lexeme.isName (Register.wordName n).toList = true := by
  decide +kernel

/-- A bit of a bank register reads back. -/
theorem parse_bankBit (n : Fin 16) {b : Nat} (hb : b < 16) :
    parse (Register.wordName n ++ "." ++ toString b) =
      .ok ⟨.bitAddr (.register (.word n)) ⟨b, hb⟩, Register.wordName n ++ "." ++ toString b⟩ := by
  obtain ⟨hword, hhead, hdot, hu, hname⟩ := bankWord_table n
  refine parse_bitText hb (fun h => by simp [h] at hhead) (fun c hc => ?_) hdot hu
    (by simp [hname]) hword
  rw [hhead, Option.mem_def, Option.some.injEq] at hc
  subst hc
  decide

/-- A bit of a bit-addressable special function register reads back. -/
theorem parse_specialBit {r : SpecialRegister} (hr : r ∈ SpecialRegister.table)
    (hba : bitAddressable r.address.toNat = true) {b : Nat} (hb : b < 16) :
    parse (r.name ++ "." ++ toString b) =
      .ok ⟨.bitAddr (.register (.special r)) ⟨b, hb⟩, r.name ++ "." ++ toString b⟩ := by
  obtain ⟨hname, -, hdot, hu, hhead, -⟩ := SpecialRegister.name_facts hr
  have hword : parseBitWord r.name = .ok (.register (.special r)) := by
    simp [parseBitWord, SpecialRegister.lookup?_name r hr, Register.isGeneral, Register.address, hba]
  have hne : r.name.toList ≠ [] := by
    intro h; rw [h] at hname; cases hname
  refine parse_bitText hb hne (fun c hc => ⟨(hhead c hc).1, ?_⟩) hdot hu (by simp [hname]) hword
  -- a name starts with a letter or `_`
  obtain ⟨c', rest, hcs⟩ := List.exists_cons_of_ne_nil hne
  rw [hcs, List.head?_cons, Option.mem_def, Option.some.injEq] at hc
  subst hc
  have hstart : isNameStart c' = true := by
    rw [hcs] at hname; simp only [Lexeme.isName, Bool.and_eq_true] at hname; exact hname.1
  intro hmem
  simp only [List.mem_cons, List.not_mem_nil, or_false] at hmem
  rcases hmem with rfl | rfl | rfl | rfl <;> revert hstart <;> decide

/-- A bit of a bit-addressable word given by its address reads back. -/
theorem parse_addressBit {a : Nat} (ha : a < 65536) (hba : bitAddressable a = true) {b : Nat}
    (hb : b < 16) :
    parse (Render.address a ++ "." ++ toString b) =
      .ok ⟨.bitAddr (.address a) ⟨b, hb⟩, Render.address a ++ "." ++ toString b⟩ := by
  have hlit := Literal.parse_upperHex_wide (w := 4) (n := a) (by decide) (by decide) (by omega)
  have hword : parseBitWord (Render.address a) = .ok (.address a) := by
    unfold parseBitWord Render.address
    simp only [lookup?_hexText, hlit, bind, Except.bind]
    rw [if_neg (by simp [hba]; omega)]
    rfl
  have hcs : (Render.address a).toList = (upperHex 4 a).toList ++ ['h'] := by
    simp [Render.address]
  have hne : (upperHex 4 a).toList ++ ['h'] ≠ [] := by simp
  have hd := isNumberChar_hexText 4 a
  have hx : Lexeme.isHex ((upperHex 4 a).toList ++ ['h']) = true := by
    have hall : ∀ c ∈ (upperHex 4 a).toList, isHexDigit c = true :=
      fun c hc => (upperHex_char hc).2.2.2.2.2.2
    simp [Lexeme.isHex, Literal.hexDigits?_append_h (upperHex_ne_nil 4 a) hall]
  refine parse_bitText hb (hcs ▸ hne) (fun c hc => ?_) (fun h => ?_) (fun h => ?_)
    (hcs ▸ wordOk_of_numberChars hne hd hx) hword
  · have hf := numberChar_facts (hd c (hcs ▸ List.mem_of_mem_head? hc))
    refine ⟨hf.1, fun hm => hf.2.2.1 ?_⟩
    simp only [List.mem_cons, List.not_mem_nil, or_false] at hm ⊢
    rcases hm with h | h | h | h <;> simp [h]
  · exact (numberChar_facts (hd '.' (hcs ▸ h))).2.2.1 (by simp)
  · exact (numberChar_facts (hd '_' (hcs ▸ h))).2.2.1 (by simp)

end Operand

/-! ## §5. The form of every slot -/

namespace SpecialRegister

/-- The register found at an address is in the table, at that address. -/
theorem atAddress?_spec {a : UInt16} {r : SpecialRegister} (h : atAddress? a = some r) :
    r ∈ table ∧ r.address = a := by
  unfold atAddress? at h
  exact ⟨List.mem_of_find?_eq_some h, by simpa using List.find?_some h⟩

end SpecialRegister

namespace ShortAddress

theorem bitSpace_ram {s : UInt8} (h : bitSpace s = .ram) : s < 0x80 ∧ s < 0xF0 := by
  unfold bitSpace at h
  split at h
  · rename_i h80
    refine ⟨h80, ?_⟩
    rw [UInt8.lt_iff_toNat_lt] at h80 ⊢
    simp at h80 ⊢
    omega
  · split at h <;> cases h

theorem bitSpace_sfr {s : UInt8} (h : bitSpace s = .sfr) : ¬ s < 0x80 ∧ s < 0xF0 := by
  unfold bitSpace at h
  split at h
  · cases h
  · split at h
    · exact ⟨by assumption, by assumption⟩
    · cases h

/-- A word with a bit short address is bit-addressable. -/
theorem bitAddressable_of_bitShort? {a : UInt16} {s : UInt8} {extended : Bool}
    (h : bitShort? a extended = some s) : Operand.bitAddressable a.toNat = true := by
  have ha : a.toNat.toUInt16 = a := UInt16.ofNat_toNat
  cases extended <;> simp [Operand.bitAddressable, ha, h]

end ShortAddress

namespace Render

open Operand

/-- Sixteen bank registers: the bound of a register number taken from a field. -/
theorem bankCount_neZero : NeZero 16 := ⟨by decide⟩

section Forms

attribute [local instance] bankCount_neZero

/-- The word of a bit short address, as its written name reads: a word register from F0h up,
else the special function register at the word, else the word's address. -/
def bitWord (s : UInt8) (extended : Bool) : BitWord :=
  let addr := (ShortAddress.bitAddress? s extended).getD 0
  match ShortAddress.bitSpace s, SpecialRegister.atAddress? addr with
  | .general, _ => .register (.word (Fin.ofNat 16 s.toNat))
  | .ram, _ => .address addr.toNat
  | .sfr, some r => .register (.special r)
  | .sfr, none => .address addr.toNat

/-- The name of a bit short address and the word it reads as: a bank register, a
bit-addressable special function register by name, or a bit-addressable word by address. -/
theorem bitName_cases (s : UInt8) (extended : Bool) :
    (∃ n : Fin 16, bitName s extended = Register.wordName n ∧
      bitWord s extended = .register (.word n)) ∨
    (∃ r ∈ SpecialRegister.table, bitAddressable r.address.toNat = true ∧
      bitName s extended = r.name ∧ bitWord s extended = .register (.special r)) ∨
    (∃ a < 65536, bitAddressable a = true ∧ bitName s extended = address a ∧
      bitWord s extended = .address a) := by
  unfold bitName bitWord
  cases hsp : ShortAddress.bitSpace s with
  | general =>
    refine .inl ⟨Fin.ofNat 16 s.toNat, ?_, rfl⟩
    simp only [Fin.val_ofNat]
  | ram =>
    obtain ⟨a, ha, hshort⟩ :=
      ShortAddress.bitShort?_bitAddress? (ShortAddress.bitSpace_ram hsp).2 extended
    simp only [ha, Option.getD_some]
    exact .inr (.inr ⟨a.toNat, a.toNat_lt, ShortAddress.bitAddressable_of_bitShort? hshort, rfl, rfl⟩)
  | sfr =>
    obtain ⟨a, ha, hshort⟩ :=
      ShortAddress.bitShort?_bitAddress? (ShortAddress.bitSpace_sfr hsp).2 extended
    simp only [ha, Option.getD_some]
    cases hat : SpecialRegister.atAddress? a with
    | some r =>
      obtain ⟨hr, hra⟩ := SpecialRegister.atAddress?_spec hat
      exact .inr (.inl ⟨r, hr, hra ▸ ShortAddress.bitAddressable_of_bitShort? hshort, rfl, rfl⟩)
    | none =>
      exact .inr (.inr ⟨a.toNat, a.toNat_lt, ShortAddress.bitAddressable_of_bitShort? hshort,
        rfl, rfl⟩)

/-- A bit-addressable word written alone, as it reads. -/
def bitWordForm : BitWord → OperandForm
  | .register r => .register r
  | .address a => .direct a true

/-- The form of the name of a short register address, for an access of width `w`. -/
def regForm (s : UInt8) (w : Width) (extended : Bool) : OperandForm :=
  if s ≥ 0xF0 then
    .register (if w = .byte then .byte (Fin.ofNat 16 s.toNat) else .word (Fin.ofNat 16 s.toNat))
  else
    let addr := (ShortAddress.regAddress? s extended).getD 0
    (SpecialRegister.atAddress? addr).elim (.direct addr.toNat true) (.register ∘ .special)

/-- A written word address reads back as a wide direct address. -/
theorem parse_address {n : Nat} (hn : n < 16 ^ 8) :
    parse (address n) = .ok ⟨.direct n true, address n⟩ :=
  parse_hexText (Literal.parse_upperHex_wide (by decide) (by decide) hn)

/-- The name of a short register address reads back as its form. -/
theorem parse_regName (s : UInt8) (w : Width) (extended : Bool) :
    parse (regName s w extended) = .ok ⟨regForm s w extended, regName s w extended⟩ := by
  unfold regName regForm
  by_cases hs : s ≥ 0xF0
  · -- a bank register, by the low nibble
    have hb := parse_bankTable (Fin.ofNat 16 s.toNat)
    simp only [Fin.val_ofNat] at hb
    by_cases hw : w = .byte
    · simp only [hs, hw, if_true]; exact hb.2.1
    · simp only [hs, hw, if_true, if_false]; exact hb.1
  · simp only [hs, if_false]
    cases hat : SpecialRegister.atAddress? ((ShortAddress.regAddress? s extended).getD 0) with
    | some r => exact parse_specialName (SpecialRegister.atAddress?_spec hat).1
    | none =>
      exact parse_address (lt_of_lt_of_le (UInt16.toNat_lt _) (by decide))

/-- The name of a bit short address reads back as its word. -/
theorem parse_bitName (s : UInt8) (extended : Bool) :
    parse (bitName s extended) =
      .ok ⟨bitWordForm (bitWord s extended), bitName s extended⟩ := by
  rcases bitName_cases s extended with ⟨n, hname, hword⟩ | ⟨r, hr, -, hname, hword⟩ |
      ⟨a, ha, -, hname, hword⟩ <;> rw [hname, hword]
  · exact (parse_bankTable n).1
  · exact parse_specialName hr
  · exact parse_address (by omega)

/-- A bit of the word of a bit short address reads back. -/
theorem parse_bitAddrName (s : UInt8) (extended : Bool) {b : Nat} (hb : b < 16) :
    parse (bitName s extended ++ "." ++ toString b) =
      .ok ⟨.bitAddr (bitWord s extended) ⟨b, hb⟩, bitName s extended ++ "." ++ toString b⟩ := by
  rcases bitName_cases s extended with ⟨n, hname, hword⟩ | ⟨r, hr, hba, hname, hword⟩ |
      ⟨a, ha, hba, hname, hword⟩ <;> rw [hname, hword]
  · exact parse_bankBit n hb
  · exact parse_specialBit hr hba hb
  · exact parse_addressBit ha hba hb

/-- The form of the data-or-register operand, by its mode tag. -/
def data3OrIndForm (fs : Fields) : OperandForm :=
  let mode := fs.text .mode0
  if mode = Mode.reg then .indirect (Fin.ofNat 16 (fs.uint .register1).toNat)
  else if mode = Mode.regInc then .postInc (Fin.ofNat 16 (fs.uint .register1).toNat)
  else .immediate (fs.uint .data0).toNat (decide (256 ≤ (fs.uint .data0).toNat))

/-- The form that the text of an operand in slot `s` stands for. A number keeps its value;
one written with two hex digits is wide only when it does not fit a byte. -/
def operandForm (s : Slot) (fs : Fields) (extended : Bool) : OperandForm :=
  let v := (fs.uint s.field).toNat
  let aux := ((s.aux.map fs.uint).getD 0).toNat
  match s.kind with
  | .rw => .register (.word (Fin.ofNat 16 v))
  | .rb => .register (.byte (Fin.ofNat 16 v))
  | .regW => regForm v.toUInt8 .word extended
  | .regB => regForm v.toUInt8 .byte extended
  | .mem | .caddr => .direct v true
  | .seg => .direct v (decide (256 ≤ v))
  | .ind => .indirect (Fin.ofNat 16 v)
  | .postInc => .postInc (Fin.ofNat 16 v)
  | .preDec => .preDec (Fin.ofNat 16 v)
  | .indOff => .indexed (Fin.ofNat 16 v) aux
  | .data3OrInd => data3OrIndForm fs
  | .data4 | .data8 | .mask8 | .trap => .immediate v (decide (256 ≤ v))
  | .data16 => .immediate v true
  | .pageSeg =>
    if fs.has .page0 then .immediate (fs.uint .page0).toNat true
    else .immediate (fs.uint .segment0).toNat (decide (256 ≤ (fs.uint .segment0).toNat))
  | .irange => .immediate v false
  | .bitAddr => .bitAddr (bitWord v.toUInt8 extended) (Fin.ofNat 16 aux)
  | .bitoff => bitWordForm (bitWord v.toUInt8 extended)
  | .cond => .condition (Condition.ofNat v)
  | .rel => .relative (fs.int s.field).toInt

end Forms

/-- The fields of slot `s` that read back as they are written: a bit number below 16, a
displacement that fits a signed byte, an ext range of one digit. -/
def ParseFits (s : Slot) (fs : Fields) : Prop :=
  match s.kind with
  | .bitAddr => ((s.aux.map fs.uint).getD 0).toNat < 16
  | .rel => -128 ≤ (fs.int s.field).toInt ∧ (fs.int s.field).toInt ≤ 127
  | .irange => (fs.uint s.field).toNat < 10
  | _ => True

theorem toNat_lt_of_uint32 (x : UInt32) : x.toNat < 16 ^ 8 := x.toNat_lt

/-- **The text of every operand reads back as its form**, with the text as its raw text,
when the slot's fields read back as written. -/
theorem parse_operand (s : Slot) (fs : Fields) (extended : Bool) (h : ParseFits s fs) :
    parse (operand s fs extended) = .ok ⟨operandForm s fs extended, operand s fs extended⟩ := by
  obtain ⟨kind, field, aux⟩ := s
  have hv := toNat_lt_of_uint32 (fs.uint field)
  have hbank := parse_bankTable (Fin.ofNat 16 (fs.uint field).toNat)
  simp only [Fin.val_ofNat, Register.wordName_mod, Register.byteName_mod] at hbank
  cases kind <;> simp only [ParseFits] at h <;> simp only [operand, operandForm]
  case rw => exact hbank.1
  case rb => exact hbank.2.1
  case regW => exact parse_regName _ _ _
  case regB => exact parse_regName _ _ _
  case mem | caddr => exact parse_address hv
  case seg => exact parse_hexText (Literal.parse_upperHex_two hv)
  case ind => exact hbank.2.2.1
  case postInc => exact hbank.2.2.2.1
  case preDec => exact hbank.2.2.2.2.1
  case indOff => exact parse_indexedText _ (toNat_lt_of_uint32 _)
  case data3OrInd =>
    have hr := parse_bankTable (Fin.ofNat 16 (fs.uint .register1).toNat)
    simp only [Fin.val_ofNat, Register.wordName_mod] at hr
    unfold data3OrInd data3OrIndForm
    by_cases hreg : fs.text .mode0 = Mode.reg
    · rw [if_pos hreg, if_pos hreg]; exact hr.2.2.1
    · by_cases hinc : fs.text .mode0 = Mode.regInc
      · rw [if_neg hreg, if_neg hreg, if_pos hinc, if_pos hinc]; exact hr.2.2.2.1
      · rw [if_neg hreg, if_neg hreg, if_neg hinc, if_neg hinc]
        exact parse_imm2 (toNat_lt_of_uint32 _)
  case data4 | data8 | mask8 | trap => exact parse_imm2 hv
  case data16 => exact parse_imm4 hv
  case bitAddr =>
    have hb := parse_bitAddrName (fs.uint field).toNat.toUInt8 extended h
    rwa [show (⟨((aux.map fs.uint).getD 0).toNat, h⟩ : Fin 16) =
      Fin.ofNat 16 ((aux.map fs.uint).getD 0).toNat from Fin.ext (by simp [Nat.mod_eq_of_lt h])] at hb
  case bitoff => exact parse_bitName _ _
  case cond => exact hbank.2.2.2.2.2
  case rel => exact parse_relative h.1 h.2
  case pageSeg =>
    by_cases hp : fs.has .page0 = true
    · simp only [hp, if_true]; exact parse_imm4 (toNat_lt_of_uint32 _)
    · simp only [hp, if_false, Bool.false_eq_true]; exact parse_imm2 (toNat_lt_of_uint32 _)
  case irange => exact parse_decimalImmediate h

end Render

/-! ## §6. Texts that stand alone in a line -/

namespace Text

/-- A character of a plain operand text: a letter, a digit, or one of `_ # + - .`. -/
def isPlainChar (c : Char) : Bool :=
  isAsciiLetter c || isDigit c || c = '_' || c = '#' || c = '+' || c = '-' || c = '.'

/-- A character that a line keeps inside an operand: no line end, no comment, no quote, no
separator and no colon. -/
def isOperandChar (c : Char) : Bool :=
  !(c = '\n' || c = '\x00' || c = ';' || c = '\'' || c = '"' || c = ',' || c = ':')

theorem toNat_lt_of_isPlainChar {c : Char} (h : isPlainChar c = true) : c.toNat < 128 := by
  simp only [isPlainChar, isAsciiLetter, isDigit, Bool.or_eq_true, Bool.and_eq_true,
    decide_eq_true_eq, char_le_iff, Char.reduceToNat] at h
  rcases h with ((((((h | h) | h) | rfl) | rfl) | rfl) | rfl) | rfl <;> first | omega | decide

theorem plainChar_table : ∀ n : Fin 128, isPlainChar (Char.ofNat n) = true →
    isWhite (Char.ofNat n) = false ∧ isOperandChar (Char.ofNat n) = true ∧
      Char.ofNat n ≠ '[' ∧ Char.ofNat n ≠ ']' := by
  decide

/-- A plain character is no blank, is kept inside an operand, and is no bracket. -/
theorem plainChar_facts {c : Char} (h : isPlainChar c = true) :
    isWhite c = false ∧ isOperandChar c = true ∧ c ≠ '[' ∧ c ≠ ']' := by
  have := plainChar_table ⟨c.toNat, toNat_lt_of_isPlainChar h⟩
  simp only [Char.ofNat_toNat] at this
  exact this h

theorem isPlainChar_of_isNumberChar {c : Char} (h : isNumberChar c = true) : isPlainChar c = true := by
  have := (numberChar_facts h).2.2.2.2.2
  simp only [isNameStart, isFoldLetter, Bool.or_eq_true] at this
  rcases this with hd | ((hl | hl) | hl) | hl
  · simp [isPlainChar, hd]
  · simp [isPlainChar, hl]
  · have := toNat_lt_of_isNumberChar h
    simp at hl; omega
  · have := toNat_lt_of_isNumberChar h
    simp at hl; omega
  · simp [isPlainChar, hl]

theorem isPlainChar_of_digit {n : Nat} {c : Char} (h : c ∈ (toString n).toList) : isPlainChar c = true := by
  have hd : c.isDigit = true :=
    @Nat.isDigit_of_mem_toDigits 10 n c (by decide) (by decide) (by simpa [Nat.repr] using h)
  have hdigit : isDigit c = true := by
    simp only [Char.isDigit, Bool.and_eq_true, decide_eq_true_eq] at hd
    simp only [isDigit, Bool.and_eq_true, decide_eq_true_eq]
    exact hd
  simp [isPlainChar, hdigit]

end Text

namespace Render

open Text

/-- A text of plain characters, not empty. -/
def Plain (t : String) : Prop := t.toList ≠ [] ∧ ∀ c ∈ t.toList, isPlainChar c = true

/-- `Plain` as a test. -/
def isPlain (t : String) : Bool := !t.toList.isEmpty && t.toList.all isPlainChar

theorem plain_of_isPlain {t : String} (h : isPlain t = true) : Plain t := by
  simp only [isPlain, Bool.and_eq_true, Bool.not_eq_true', List.isEmpty_eq_false_iff,
    List.all_eq_true] at h
  exact h

/-- An operand text that a line carries and gives back: not empty, no blank at either end,
only characters that a line keeps inside an operand, and as many `]` as `[`, so that no comma
after it is taken for one inside brackets. -/
structure Standalone (t : String) : Prop where
  ne_nil : t.toList ≠ []
  chars : ∀ c ∈ t.toList, isOperandChar c = true
  head : ∀ c ∈ t.toList.head?, isWhite c = false
  last : ∀ c ∈ t.toList.getLast?, isWhite c = false
  brackets : t.toList.count '[' = t.toList.count ']'

theorem Plain.append {a b : String} (ha : Plain a) (hb : ∀ c ∈ b.toList, isPlainChar c = true) :
    Plain (a ++ b) := by
  refine ⟨by simp [ha.1], fun c hc => ?_⟩
  rcases List.mem_append.mp (by simpa using hc) with hc | hc
  · exact ha.2 c hc
  · exact hb c hc

theorem Plain.standalone {t : String} (h : Plain t) : Standalone t where
  ne_nil := h.1
  chars c hc := (plainChar_facts (h.2 c hc)).2.1
  head c hc := (plainChar_facts (h.2 c (List.mem_of_mem_head? hc))).1
  last c hc := (plainChar_facts (h.2 c (List.mem_of_mem_getLast? hc))).1
  brackets := by
    rw [List.count_eq_zero.mpr fun hc => (plainChar_facts (h.2 _ hc)).2.2.1 rfl,
      List.count_eq_zero.mpr fun hc => (plainChar_facts (h.2 _ hc)).2.2.2 rfl]

/-- A plain character, then a plain text. -/
theorem plain_cons (c : Char) (hc : isPlainChar c = true) {t : String}
    (h : ∀ d ∈ t.toList, isPlainChar d = true) : Plain (String.singleton c ++ t) :=
  Plain.append ⟨by simp, by simpa using hc⟩ h

/-- Plain characters and spaces between a pair of brackets. -/
theorem standalone_bracket {t : String} (inner : List Char) (ht : t.toList = '[' :: (inner ++ [']']))
    (h : ∀ c ∈ inner, isPlainChar c = true ∨ c = ' ') : Standalone t where
  ne_nil := by simp [ht]
  chars c hc := by
    simp only [ht, List.mem_cons, List.mem_append, List.not_mem_nil, or_false] at hc
    rcases hc with rfl | hc | rfl
    · decide
    · rcases h c hc with hp | rfl
      · exact (plainChar_facts hp).2.1
      · decide
    · decide
  head c hc := by simp [ht] at hc; subst hc; decide
  last c hc := by
    rw [ht, List.getLast?_cons, List.getLast?_concat] at hc
    simp at hc; subst hc; decide
  brackets := by
    have hno : ∀ x ∈ ['[', ']'], inner.count x = 0 := by
      intro x hx
      refine List.count_eq_zero.mpr fun hc => ?_
      simp only [List.mem_cons, List.not_mem_nil, or_false] at hx
      rcases h x hc with hp | hsp
      · rcases hx with rfl | rfl
        · exact (plainChar_facts hp).2.2.1 rfl
        · exact (plainChar_facts hp).2.2.2 rfl
      · rcases hx with rfl | rfl <;> cases hsp
    simp [ht, List.count_append, hno '[' (by simp), hno ']' (by simp)]

theorem plain_hexText (w n : Nat) : Plain (Text.upperHex w n ++ "h") :=
  ⟨by simp, fun c hc => isPlainChar_of_isNumberChar (isNumberChar_hexText w n c (by simpa using hc))⟩

theorem plain_imm (w n : Nat) : Plain ("#" ++ Text.upperHex w n ++ "h") := by
  rw [String.append_assoc]
  exact plain_cons '#' (by decide) (plain_hexText w n).2

set_option maxRecDepth 100000 in
/-- The names of the bank registers, byte registers, conditions and special function
registers are plain. -/
theorem isPlain_nameTable : (∀ n : Fin 16, (isPlain (Register.wordName n) &&
    isPlain (Register.byteName n) && isPlain (Condition.name ⟨n⟩)) = true) ∧
    ∀ r ∈ SpecialRegister.table, isPlain r.name = true := by
  decide +kernel

theorem plain_nameTable : (∀ n : Fin 16, Plain (Register.wordName n) ∧ Plain (Register.byteName n) ∧
    Plain (Condition.name ⟨n⟩)) ∧ ∀ r ∈ SpecialRegister.table, Plain r.name := by
  refine ⟨fun n => ?_, fun r hr => plain_of_isPlain (isPlain_nameTable.2 r hr)⟩
  have h := isPlain_nameTable.1 n
  simp only [Bool.and_eq_true] at h
  exact ⟨plain_of_isPlain h.1.1, plain_of_isPlain h.1.2, plain_of_isPlain h.2⟩

theorem plain_wordName (n : Nat) : Plain (Register.wordName n) := by
  rw [← Register.wordName_mod]
  exact (plain_nameTable.1 (Fin.ofNat 16 n)).1

theorem plain_byteName (n : Nat) : Plain (Register.byteName n) := by
  rw [← Register.byteName_mod]
  exact (plain_nameTable.1 (Fin.ofNat 16 n)).2.1

theorem plain_regName (s : UInt8) (w : Width) (extended : Bool) : Plain (regName s w extended) := by
  unfold regName
  by_cases hs : s ≥ 0xF0
  · by_cases hw : w = .byte
    · simp only [hs, hw, if_true]; exact plain_byteName _
    · simp only [hs, hw, if_true, if_false]; exact plain_wordName _
  · simp only [hs, if_false]
    cases hat : SpecialRegister.atAddress? ((ShortAddress.regAddress? s extended).getD 0) with
    | some r => exact plain_nameTable.2 r (SpecialRegister.atAddress?_spec hat).1
    | none => exact plain_hexText 4 _

theorem plain_bitName (s : UInt8) (extended : Bool) : Plain (bitName s extended) := by
  rcases bitName_cases s extended with ⟨n, hname, -⟩ | ⟨r, hr, -, hname, -⟩ | ⟨a, -, -, hname, -⟩ <;>
    rw [hname]
  · exact plain_wordName n
  · exact plain_nameTable.2 r hr
  · exact plain_hexText 4 a

theorem plain_relative (r : Int32) : Plain (relative r) := by
  have hsigned : ∀ i : Int, ∀ c ∈ (signedHex i ++ "h").toList, isPlainChar c = true := by
    intro i
    unfold signedHex
    split
    · rw [String.append_assoc]
      exact (plain_cons '-' (by decide) (plain_hexText 2 _).2).2
    · exact (plain_hexText 2 _).2
  unfold relative
  split <;> rw [String.append_assoc]
  · exact plain_cons '-' (by decide) (hsigned _)
  · exact plain_cons '+' (by decide) (hsigned _)

/-- **Every written operand stands alone in a line.** -/
theorem standalone_operand (s : Slot) (fs : Fields) (extended : Bool) :
    Standalone (operand s fs extended) := by
  -- the bracketed forms hold a bank register, with a sign or an offset
  have hword : ∀ n, ∀ c ∈ (Register.wordName n).toList, isPlainChar c = true ∨ c = ' ' :=
    fun n c hc => .inl ((plain_wordName n).2 c hc)
  have hind : ∀ n, Standalone ("[" ++ Register.wordName n ++ "]") :=
    fun n => standalone_bracket _ (by simp) (hword n)
  have hpost : ∀ n, Standalone ("[" ++ Register.wordName n ++ "+]") := by
    intro n
    refine standalone_bracket ((Register.wordName n).toList ++ ['+']) (by simp) fun c hc => ?_
    rcases List.mem_append.mp hc with hc | hc
    · exact hword n c hc
    · simp only [List.mem_singleton] at hc; subst hc; decide
  obtain ⟨kind, field, aux⟩ := s
  cases kind <;> simp only [operand]
  case rw => exact (plain_wordName _).standalone
  case rb => exact (plain_byteName _).standalone
  case regW | regB => exact (plain_regName _ _ _).standalone
  case mem | caddr => exact (plain_hexText 4 _).standalone
  case seg => exact (plain_hexText 2 _).standalone
  case ind => exact hind _
  case postInc => exact hpost _
  case preDec =>
    refine standalone_bracket ('-' :: (Register.wordName (fs.uint field).toNat).toList) (by simp)
      fun c hc => ?_
    rcases List.mem_cons.mp hc with rfl | hc
    · decide
    · exact hword _ c hc
  case indOff =>
    refine standalone_bracket ((Register.wordName (fs.uint field).toNat).toList ++ [' ', '+', ' '] ++
      ("#" ++ Text.upperHex 4 ((aux.map fs.uint).getD 0).toNat ++ "h").toList) (by simp) fun c hc => ?_
    simp only [List.mem_append] at hc
    rcases hc with (hc | hc) | hc
    · exact hword _ c hc
    · simp only [List.mem_cons, List.not_mem_nil, or_false] at hc
      rcases hc with rfl | rfl | rfl <;> decide
    · exact .inl ((plain_imm 4 _).2 c hc)
  case data3OrInd =>
    unfold data3OrInd
    by_cases hreg : fs.text .mode0 = Mode.reg
    · rw [if_pos hreg]; exact hind _
    · by_cases hinc : fs.text .mode0 = Mode.regInc
      · rw [if_neg hreg, if_pos hinc]; exact hpost _
      · rw [if_neg hreg, if_neg hinc]; exact (plain_imm 2 _).standalone
  case data4 | data8 | mask8 | trap => exact (plain_imm 2 _).standalone
  case data16 => exact (plain_imm 4 _).standalone
  case bitAddr =>
    have hdot : ∀ c ∈ ".".toList, isPlainChar c = true := by simp [isPlainChar]
    exact (Plain.append (Plain.append (plain_bitName _ _) hdot)
      (fun c hc => isPlainChar_of_digit hc)).standalone
  case bitoff => exact (plain_bitName _ _).standalone
  case cond => exact (plain_nameTable.1 (Condition.ofNat _).code).2.2.standalone
  case rel => exact (plain_relative _).standalone
  case pageSeg =>
    by_cases hp : fs.has .page0 = true
    · rw [if_pos hp]; exact (plain_imm 4 _).standalone
    · rw [if_neg hp]; exact (plain_imm 2 _).standalone
  case irange =>
    exact (plain_cons '#' (by decide) (fun c hc => isPlainChar_of_digit hc)).standalone

end Render

end C166Codec
