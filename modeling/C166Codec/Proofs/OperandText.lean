import C166Codec.Proofs.HexText
import C166Codec.Instruction.Render
import C166Codec.Source.Operand
/-!
# Operand texts read back: the reader's side

A listing writes each operand with `Render.operand`; the assembler reads it back with
`Operand.parse`. This module collects what the reader does with the pieces of such texts;
`C166Codec.Proofs.SlotText` puts them together into the form of every operand slot.

* §1 names: special function registers are found by their names, and no such name reads
  as a number;
* §2 the order in which `Operand.parsePlain` tries the forms, and what stops each earlier try;
* §3 numbers: a written number with its `h` names no register and reads back as a direct
  address of its value.
-/

namespace C166Codec

/-! ## §1. Names -/

namespace Register

theorem wordName_mod (n : Nat) : wordName (n % 16) = wordName n := by
  simp [wordName]

theorem byteName_mod (n : Nat) : byteName (n % 16) = byteName n := by
  simp [byteName]

end Register

namespace SpecialRegister

section Table

set_option maxRecDepth 100000

/-- Every special function register is found by its name. -/
theorem lookup?_name : ∀ r ∈ table, Register.lookup? r.name = some (.special r) := by
  decide +kernel

/-- The names of the special function registers, checked letter by letter: names in the
assembler's sense, never hexadecimal numbers, without `.` or `_`, with no blank at either end
and no `[` in front. -/
theorem name_table : ∀ r ∈ table,
    (Lexeme.isName r.name.toList && !Lexeme.isHex r.name.toList &&
      !r.name.toList.contains '.' && !r.name.toList.contains '_' &&
      (r.name.toList.head?.all fun c => !Text.isWhite c && c != '[') &&
      (r.name.toList.getLast?.all fun c => !Text.isWhite c)) = true := by
  decide

end Table

/-- What `name_table` says of one register. -/
theorem name_facts {r : SpecialRegister} (hr : r ∈ table) :
    Lexeme.isName r.name.toList = true ∧ Lexeme.isHex r.name.toList = false ∧
      '.' ∉ r.name.toList ∧ '_' ∉ r.name.toList ∧
      (∀ c ∈ r.name.toList.head?, Text.isWhite c = false ∧ c ≠ '[') ∧
      ∀ c ∈ r.name.toList.getLast?, Text.isWhite c = false := by
  have h := name_table r hr
  simp only [Bool.and_eq_true, Bool.not_eq_true', List.contains_eq_mem, decide_eq_false_iff_not,
    Option.all_eq_true, bne_iff_ne, ne_eq] at h
  obtain ⟨⟨⟨⟨⟨h1, h2⟩, h3⟩, h4⟩, h5⟩, h6⟩ := h
  exact ⟨h1, h2, h3, h4, fun c hc => ⟨(h5 c hc).1, (h5 c hc).2⟩, h6⟩

theorem named?_eq_none {s : String} (h : ∀ r ∈ table, r.name ≠ Text.upper (Text.trim s)) :
    named? s = none := by
  unfold named?
  rw [List.find?_eq_none]
  intro r hr
  simpa using h r hr

/-- A text that is no name in upper case names no special function register. -/
theorem named?_of_not_isName {s : String}
    (h : Lexeme.isName (Text.upper (Text.trim s)).toList = false) : named? s = none := by
  apply named?_eq_none
  intro r hr heq
  rw [← heq, (name_facts hr).1] at h
  cases h

/-- A text that is a hexadecimal number in upper case names no special function register. -/
theorem named?_of_isHex {s : String}
    (h : Lexeme.isHex (Text.upper (Text.trim s)).toList = true) : named? s = none := by
  apply named?_eq_none
  intro r hr heq
  rw [← heq, (name_facts hr).2.1] at h
  cases h

end SpecialRegister

/-! ## §2. The order of the plain forms -/

namespace Operand

variable {t : String} {cs : List Char}

theorem parse_of_trim {c : Char} {rest : List Char} (ht : Text.trim t = t)
    (hcs : t.toList = c :: rest) :
    parse t = (if c = '[' then parseIndirect t (c :: rest) else parsePlain t (c :: rest)).map
      (⟨·, t⟩) := by
  simp only [parse, ht, hcs]

theorem parsePlain_register {r : Register} (h : Register.lookup? t = some r) :
    parsePlain t cs = .ok (.register r) := by
  delta parsePlain
  simp [h]

/-- Text that is neither a register nor a condition token and starts with `#` is an
immediate. -/
theorem parsePlain_immediate {body : List Char} {lit : Literal} (hl : Register.lookup? t = none)
    (hc : isConditionToken cs = false) (hi : immediatePattern? cs = some body)
    (hlit : Literal.parse (String.ofList body) = .ok lit) :
    parsePlain t cs = .ok (.immediate lit.value lit.wide) := by
  delta parsePlain
  simp [hl, hc, hi, hlit]

theorem parsePlain_bitAddr {word digits : List Char} (hl : Register.lookup? t = none)
    (hc : isConditionToken cs = false) (hi : immediatePattern? cs = none)
    (hb : bitAddrPattern? cs = some (word, digits)) :
    parsePlain t cs = parseBitAddr word digits := by
  delta parsePlain
  simp [hl, hc, hi, hb]

theorem parsePlain_relative {neg : Bool} {num : List Char} {lit : Literal}
    (hl : Register.lookup? t = none) (hc : isConditionToken cs = false)
    (hi : immediatePattern? cs = none) (hb : bitAddrPattern? cs = none)
    (hr : relativePattern? cs = some (neg, num)) (hlit : Literal.parse (String.ofList num) = .ok lit) :
    parsePlain t cs = .ok (.relative (if neg then -(lit.value : Int) else lit.value)) := by
  delta parsePlain
  simp [hl, hc, hi, hb, hr, hlit]

theorem parsePlain_direct {lit : Literal} (hl : Register.lookup? t = none)
    (hc : isConditionToken cs = false) (hi : immediatePattern? cs = none)
    (hb : bitAddrPattern? cs = none) (hr : relativePattern? cs = none)
    (hn : Lexeme.isNumber cs = true) (hlit : Literal.parse t = .ok lit) :
    parsePlain t cs = .ok (.direct lit.value lit.wide) := by
  delta parsePlain
  simp [hl, hc, hi, hb, hr, hn, hlit]

/-- A condition token has `_` as its third character. -/
theorem isConditionToken_of_not_mem (h : '_' ∉ cs) : isConditionToken cs = false := by
  unfold isConditionToken
  split
  · simp at h
  · rfl

theorem immediatePattern?_of_head {c : Char} {rest : List Char} (hc : c ≠ '#') :
    immediatePattern? (c :: rest) = none := by
  simp [immediatePattern?, hc]

/-- A bit address has a `.` between its word and its bit. -/
theorem bitAddrPattern?_of_not_mem (h : '.' ∉ cs) : bitAddrPattern? cs = none := by
  have hd : cs.dropWhile (· != '.') = [] := by
    rw [List.dropWhile_eq_nil_iff]
    intro c hc
    have hne : c ≠ '.' := fun heq => h (heq ▸ hc)
    simp [hne]
  simp [bitAddrPattern?, hd]

theorem relativePattern?_of_head {c : Char} {rest : List Char} (hc : c ≠ '+' ∧ c ≠ '-') :
    relativePattern? (c :: rest) = none := by
  simp [relativePattern?, hc.1, hc.2]

/-- A text whose first character is not an `r` is no bank register name. -/
theorem parseGeneral?_of_head {c : Char} {rest : List Char} (ht : (Text.trim t).toList = c :: rest)
    (hc : Text.lowerChar c ≠ 'r') : Register.parseGeneral? t = none := by
  unfold Register.parseGeneral?
  have hl : (Text.lower (Text.trim t)).toList = Text.lowerChar c :: rest.map Text.lowerChar := by
    simp [Text.lower, ht]
  rw [hl]
  split <;> simp_all

/-- A text that neither starts with an `r` nor reads as a special function register's name is
no register. -/
theorem lookup?_eq_none {c : Char} {rest : List Char} (ht : (Text.trim t).toList = c :: rest)
    (hc : Text.lowerChar c ≠ 'r') (hn : SpecialRegister.named? t = none) :
    Register.lookup? t = none := by
  simp [Register.lookup?, parseGeneral?_of_head ht hc, hn]

end Operand

/-! ## §3. Numbers -/

namespace Text

/-- An upper-case hex digit is no blank and none of the punctuation of an operand; it is a
part of a name, is no `r` in lower case, and stays as it is in upper case. -/
theorem upperDigit_facts : ∀ d, d < 16 →
    isGap (Nat.digitChar d).toUpper = false ∧ isWhite (Nat.digitChar d).toUpper = false ∧
      (Nat.digitChar d).toUpper ∉ ['[', ']', '.', '_', '#', '+', '-'] ∧
      isNamePart (Nat.digitChar d).toUpper = true ∧ lowerChar (Nat.digitChar d).toUpper ≠ 'r' ∧
      upperChar (Nat.digitChar d).toUpper = (Nat.digitChar d).toUpper
  | 0, _ | 1, _ | 2, _ | 3, _ | 4, _ | 5, _ | 6, _ | 7, _ | 8, _ | 9, _ | 10, _ | 11, _ | 12, _
  | 13, _ | 14, _ | 15, _ => by decide
  | _ + 16, h => absurd h (by omega)

/-- The characters of a written number, with the facts of `upperDigit_facts`. -/
theorem upperHex_char {w n : Nat} {c : Char} (h : c ∈ (upperHex w n).toList) :
    isGap c = false ∧ isWhite c = false ∧ c ∉ ['[', ']', '.', '_', '#', '+', '-'] ∧
      isNamePart c = true ∧ lowerChar c ≠ 'r' ∧ upperChar c = c ∧ isHexDigit c = true := by
  obtain ⟨d, hd, rfl⟩ := mem_upperHex h
  exact ⟨(upperDigit_facts d hd).1, (upperDigit_facts d hd).2.1, (upperDigit_facts d hd).2.2.1,
    (upperDigit_facts d hd).2.2.2.1, (upperDigit_facts d hd).2.2.2.2.1,
    (upperDigit_facts d hd).2.2.2.2.2, (digitChar_toUpper d hd).2⟩

theorem upperHex_ne_nil (w n : Nat) : (upperHex w n).toList ≠ [] := by
  rw [← List.length_pos_iff, length_upperHex]
  have := length_hexDigits_pos n
  omega

/-- In upper case, a written number with its `h` is still a hexadecimal number. -/
theorem isHex_upper_hexText (w n : Nat) :
    Lexeme.isHex (((upperHex w n).toList ++ ['h']).map upperChar) = true := by
  have hmap : (upperHex w n).toList.map upperChar = (upperHex w n).toList := by
    rw [List.map_congr_left (fun c hc => (upperHex_char hc).2.2.2.2.2.1), List.map_id']
  simp only [Lexeme.isHex, Lexeme.hexDigits?, List.map_append, hmap, List.map_cons, List.map_nil,
    List.reverse_append, List.reverse_cons, List.reverse_nil, List.nil_append, List.singleton_append]
  have hH : sameLetter (upperChar 'h') 'h' = true := by decide
  have hall : (upperHex w n).toList.reverse.all isHexDigit = true := by
    simpa using fun c hc => (upperHex_char hc).2.2.2.2.2.2
  have hne : (upperHex w n).toList.reverse.isEmpty = false := by
    simpa using upperHex_ne_nil w n
  simp [hH, hall, hne]

/-- The characters of a written number and its `h`: no blank, none of the punctuation of an
operand, all parts of a name. -/
theorem hexText_char {w n : Nat} {c : Char} (h : c ∈ (upperHex w n).toList ++ ['h']) :
    isGap c = false ∧ c ∉ ['[', ']', '.', '_', '#', '+', '-'] ∧ isNamePart c = true := by
  rcases List.mem_append.mp h with h | h
  · exact ⟨(upperHex_char h).1, (upperHex_char h).2.2.1, (upperHex_char h).2.2.2.1⟩
  · rw [List.mem_singleton.mp h]
    decide

theorem not_mem_hexText {w n : Nat} {c : Char} (hc : c ∈ ['[', ']', '.', '_', '#', '+', '-']) :
    c ∉ (upperHex w n).toList ++ ['h'] :=
  fun h => (hexText_char h).2.1 hc

end Text

namespace Operand

open Text

/-- A text that ends in a character that is no blank ends in no blank. -/
theorem last_not_white {t : String} {cs : List Char} {c : Char} (h : t.toList = cs ++ [c])
    (hc : isWhite c = false := by decide) : ∀ d ∈ t.toList.getLast?, isWhite d = false := by
  intro d hd
  rw [h, List.getLast?_concat, Option.mem_def, Option.some.injEq] at hd
  exact hd ▸ hc

/-- The first character of a written number. -/
theorem exists_head_upperHex (w n : Nat) :
    ∃ c ds, (upperHex w n).toList = c :: ds ∧ isWhite c = false ∧ c ≠ '[' ∧ lowerChar c ≠ 'r' ∧
      c ≠ '#' ∧ c ≠ '+' ∧ c ≠ '-' := by
  obtain ⟨c, ds, hds⟩ := List.exists_cons_of_ne_nil (upperHex_ne_nil w n)
  have hc := upperHex_char (hds ▸ List.mem_cons_self : c ∈ (upperHex w n).toList)
  have hp := hc.2.2.1
  simp only [List.mem_cons, List.not_mem_nil, or_false, not_or] at hp
  exact ⟨c, ds, hds, hc.2.1, hp.1, hc.2.2.2.2.1, hp.2.2.2.2.1, hp.2.2.2.2.2.1, hp.2.2.2.2.2.2⟩

/-- A written number with its `h` names no register. -/
theorem lookup?_hexText (w n : Nat) : Register.lookup? (upperHex w n ++ "h") = none := by
  obtain ⟨c, ds, hds, hw, -, hr, -⟩ := exists_head_upperHex w n
  have hcs : (upperHex w n ++ "h").toList = c :: (ds ++ ['h']) := by simp [hds]
  have hcs' : (upperHex w n ++ "h").toList = (upperHex w n).toList ++ ['h'] := by simp
  have ht : trim (upperHex w n ++ "h") = upperHex w n ++ "h" :=
    trim_eq_self (by simp [hcs, hw]) (last_not_white hcs')
  refine lookup?_eq_none (by rw [ht, hcs]) hr (SpecialRegister.named?_of_isHex ?_)
  simpa [ht, upper, hcs'] using isHex_upper_hexText w n

/-- **A written number with its `h` reads back as a direct address** of the literal's value
and width. -/
theorem parse_hexText {w n : Nat} {lit : Literal}
    (hlit : Literal.parse (upperHex w n ++ "h") = .ok lit) :
    parse (upperHex w n ++ "h") = .ok ⟨.direct lit.value lit.wide, upperHex w n ++ "h"⟩ := by
  obtain ⟨c, ds, hds, hw, hb, -, hh, hpm⟩ := exists_head_upperHex w n
  have hcs : (upperHex w n ++ "h").toList = c :: (ds ++ ['h']) := by simp [hds]
  have hcs' : (upperHex w n ++ "h").toList = (upperHex w n).toList ++ ['h'] := by simp
  have ht : trim (upperHex w n ++ "h") = upperHex w n ++ "h" :=
    trim_eq_self (by simp [hcs, hw]) (last_not_white hcs')
  have hnum : Lexeme.isNumber (c :: (ds ++ ['h'])) = true := by
    have hne : (upperHex w n).toList ≠ [] := upperHex_ne_nil w n
    have hall : ∀ d ∈ (upperHex w n).toList, isHexDigit d = true :=
      fun d hd => (upperHex_char hd).2.2.2.2.2.2
    simp [Lexeme.isNumber, Lexeme.isHex, ← hcs, hcs', Literal.hexDigits?_append_h hne hall]
  -- no register, no condition, no immediate, bit address or displacement: a number
  rw [parse_of_trim ht hcs, if_neg hb, parsePlain_direct (lookup?_hexText w n)
    (isConditionToken_of_not_mem (hcs ▸ hcs' ▸ not_mem_hexText (by simp)))
    (immediatePattern?_of_head hh)
    (bitAddrPattern?_of_not_mem (hcs ▸ hcs' ▸ not_mem_hexText (by simp)))
    (relativePattern?_of_head hpm) hnum hlit]
  rfl

end Operand

end C166Codec
