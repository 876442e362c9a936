import C166Codec.Proofs.OperandText
import C166Codec.Source.Statement
/-!
# Folding letter case

`foldChar` lowers the ASCII letters `A`..`Z` and leaves every other character alone, and
`foldText` does so for a whole text. Reading assembly text cannot see the difference: every
character class the lexer tests, every lexeme, literal, register and condition name, operand
and statement reads the same after folding, up to the text it keeps and the detail of its
errors.

* §1 characters: a class that agrees on the two cases of each letter is blind to folding
  (`apply_foldChar`), and a character that is not a letter folds only from itself.
* §2 lexemes and literals.
* §3 operands: a folded operand is read as the same form, and keeps the folded text
  (`Operand.parse_foldText`).
* §4 statements: a folded line reads as the folded statement, or fails with an error of the
  same class (`Statement.parse_map_foldChar`), and a folded text splits into the folded lines.
-/

namespace C166Codec.Text

/-! ## §1. Characters -/

/-- The character with an upper-case ASCII letter lowered. -/
def foldChar (c : Char) : Char :=
  if 'A' ≤ c && c ≤ 'Z' then Char.ofNat (c.toNat + 32) else c

/-- The text with its upper-case ASCII letters lowered. -/
def foldText (s : String) : String := String.ofList (s.toList.map foldChar)

theorem toNat_ofNat_ascii {n : Nat} (h : n < 128) : (Char.ofNat n).toNat = n := by
  rw [Char.toNat_ofNat, if_pos (Or.inl (by omega))]

theorem foldChar_cases (c : Char) :
    foldChar c = c ∨ (65 ≤ c.toNat ∧ c.toNat ≤ 90 ∧ (foldChar c).toNat = c.toNat + 32) := by
  unfold foldChar
  split_ifs with h
  · simp only [Bool.and_eq_true, decide_eq_true_eq, char_le_iff, Char.reduceToNat] at h
    exact Or.inr ⟨h.1, h.2, toNat_ofNat_ascii (by omega)⟩
  · exact Or.inl rfl

/-- A function of characters that gives each upper-case ASCII letter the value of its
lower-case letter cannot tell a character from its fold. The premise is a check over the
alphabet, which `decide` does. -/
theorem apply_foldChar {α : Type} {f : Char → α}
    (hf : ∀ n : Fin 26, f (Char.ofNat (n + 97)) = f (Char.ofNat (n + 65))) (c : Char) :
    f (foldChar c) = f c := by
  rcases foldChar_cases c with h | ⟨h1, h2, h3⟩
  · rw [h]
  · -- an upper-case letter is the letter n of the alphabet, and folds to the letter n
    obtain ⟨n, hn⟩ : ∃ n : Fin 26, c.toNat = n + 65 := ⟨⟨c.toNat - 65, by omega⟩, by simp; omega⟩
    have hlt := n.isLt
    have hc : Char.ofNat (n + 65) = c := by
      rw [← Char.toNat_inj, toNat_ofNat_ascii (by omega), hn]
    have hfc : foldChar c = Char.ofNat (n + 97) := by
      rw [← Char.toNat_inj, toNat_ofNat_ascii (by omega), h3, hn]
    calc f (foldChar c) = f (Char.ofNat (n + 97)) := by rw [hfc]
      _ = f (Char.ofNat (n + 65)) := hf n
      _ = f c := by rw [hc]

theorem isWhite_foldChar (c : Char) : isWhite (foldChar c) = isWhite c := apply_foldChar (by decide) c

theorem isGap_foldChar (c : Char) : isGap (foldChar c) = isGap c := apply_foldChar (by decide) c

theorem isDigit_foldChar (c : Char) : isDigit (foldChar c) = isDigit c := apply_foldChar (by decide) c

theorem isAsciiLetter_foldChar (c : Char) : isAsciiLetter (foldChar c) = isAsciiLetter c :=
  apply_foldChar (by decide) c

theorem isHexDigit_foldChar (c : Char) : isHexDigit (foldChar c) = isHexDigit c :=
  apply_foldChar (by decide) c

theorem isFoldLetter_foldChar (c : Char) : isFoldLetter (foldChar c) = isFoldLetter c :=
  apply_foldChar (by decide) c

theorem isNameStart_foldChar (c : Char) : isNameStart (foldChar c) = isNameStart c :=
  apply_foldChar (by decide) c

theorem isNamePart_foldChar (c : Char) : isNamePart (foldChar c) = isNamePart c :=
  apply_foldChar (by decide) c

theorem digitValue_foldChar (c : Char) : Lexeme.digitValue (foldChar c) = Lexeme.digitValue c :=
  apply_foldChar (by decide) c

theorem lowerChar_foldChar (c : Char) : lowerChar (foldChar c) = lowerChar c :=
  apply_foldChar (by decide) c

theorem upperChar_foldChar (c : Char) : upperChar (foldChar c) = upperChar c :=
  apply_foldChar (by decide) c

/-- A character that is not an ASCII letter is the fold of itself only. -/
theorem foldChar_eq_iff {c d : Char} (hd : isAsciiLetter d = false) : foldChar c = d ↔ c = d := by
  rcases foldChar_cases c with h | ⟨h1, h2, h3⟩
  · rw [h]
  · simp only [isAsciiLetter, Bool.or_eq_false_iff, Bool.and_eq_false_imp, decide_eq_true_eq,
      decide_eq_false_iff_not, char_le_iff, Char.reduceToNat, Nat.not_le] at hd
    rw [← Char.toNat_inj, ← Char.toNat_inj, h3]
    omega

theorem sameLetter_foldChar (c : Char) {l : Char} (hl : 97 ≤ l.toNat ∧ l.toNat ≤ 122) :
    sameLetter (foldChar c) l = sameLetter c l := by
  have hv : (Char.ofNat (l.toNat - 32)).toNat = l.toNat - 32 := toNat_ofNat_ascii (by omega)
  rcases foldChar_cases c with h | ⟨h1, h2, h3⟩
  · rw [h]
  · rw [Bool.eq_iff_iff]
    simp only [sameLetter, Bool.or_eq_true, decide_eq_true_eq, ← Char.toNat_inj, hv, h3]
    omega

theorem takeWhile_map_foldChar {p : Char → Bool} (hp : ∀ c, p (foldChar c) = p c)
    (cs : List Char) : (cs.map foldChar).takeWhile p = (cs.takeWhile p).map foldChar := by
  rw [List.takeWhile_map]
  congr 2
  exact funext hp

theorem dropWhile_map_foldChar {p : Char → Bool} (hp : ∀ c, p (foldChar c) = p c)
    (cs : List Char) : (cs.map foldChar).dropWhile p = (cs.dropWhile p).map foldChar := by
  rw [List.dropWhile_map]
  congr 2
  exact funext hp

theorem all_map_foldChar {p : Char → Bool} (hp : ∀ c, p (foldChar c) = p c) (cs : List Char) :
    (cs.map foldChar).all p = cs.all p := by
  simp [List.all_map, Function.comp_def, hp]

theorem trimChars_map_foldChar (cs : List Char) :
    trimChars (cs.map foldChar) = (trimChars cs).map foldChar := by
  simp only [trimChars, dropWhile_map_foldChar isWhite_foldChar, ← List.map_reverse]

theorem toList_foldText (s : String) : (foldText s).toList = s.toList.map foldChar :=
  String.toList_ofList

theorem trim_foldText (s : String) : trim (foldText s) = foldText (trim s) := by
  simp [trim, foldText, trimChars_map_foldChar]

theorem lower_foldText (s : String) : lower (foldText s) = lower s := by
  simp [lower, foldText, Function.comp_def, lowerChar_foldChar]

theorem upper_foldText (s : String) : upper (foldText s) = upper s := by
  simp [upper, foldText, Function.comp_def, upperChar_foldChar]

theorem foldText_ofList (cs : List Char) :
    foldText (String.ofList cs) = String.ofList (cs.map foldChar) := by
  simp [foldText]

theorem map_foldChar_of_all_isDigit {ds : List Char} (h : ds.all isDigit = true) :
    ds.map foldChar = ds := by
  refine List.map_congr_left (fun c hc => ?_) |>.trans (List.map_id' ds)
  have hd := List.all_eq_true.1 h c hc
  rcases foldChar_cases c with h' | ⟨h1, h2, -⟩
  · exact h'
  · simp only [isDigit, Bool.and_eq_true, decide_eq_true_eq, char_le_iff, Char.reduceToNat] at hd
    omega

end C166Codec.Text

/-! ## §2. Lexemes and literals -/

namespace C166Codec.Lexeme

open Text

/-- The digits of a hexadecimal lexeme fold with it, and its suffix may be `h` or `H`. -/
theorem hexDigits?_map_foldChar (cs : List Char) :
    hexDigits? (cs.map foldChar) = (hexDigits? cs).map (·.map foldChar) := by
  unfold hexDigits?
  rw [← List.map_reverse]
  cases cs.reverse with
  | nil => rfl
  | cons h ds =>
    simp only [List.map_cons, sameLetter_foldChar h (l := 'h') (by decide), List.isEmpty_map,
      all_map_foldChar isHexDigit_foldChar]
    split_ifs <;> simp

theorem isHex_map_foldChar (cs : List Char) : isHex (cs.map foldChar) = isHex cs := by
  simp [isHex, hexDigits?_map_foldChar]

theorem isDecimal_map_foldChar (cs : List Char) : isDecimal (cs.map foldChar) = isDecimal cs := by
  match cs with
  | [] => rfl
  | [c] => exact isDigit_foldChar c
  | _ :: _ :: _ => rfl

theorem isNumber_map_foldChar (cs : List Char) : isNumber (cs.map foldChar) = isNumber cs := by
  simp [isNumber, isDecimal_map_foldChar, isHex_map_foldChar]

theorem isName_map_foldChar (cs : List Char) : isName (cs.map foldChar) = isName cs := by
  cases cs with
  | nil => rfl
  | cons c cs => simp [isName, isNameStart_foldChar, all_map_foldChar isNamePart_foldChar]

theorem hexValue_map_foldChar (ds : List Char) : hexValue (ds.map foldChar) = hexValue ds := by
  simp [hexValue, List.foldl_map, digitValue_foldChar]

theorem skipGaps_map_foldChar (cs : List Char) :
    skipGaps (cs.map foldChar) = (skipGaps cs).map foldChar :=
  dropWhile_map_foldChar isGap_foldChar cs

theorem expect_map_foldChar {c : Char} (hc : isAsciiLetter c = false) (cs : List Char) :
    expect c (cs.map foldChar) = (expect c cs).map (·.map foldChar) := by
  cases cs with
  | nil => rfl
  | cons d rest => simp only [List.map_cons, expect, foldChar_eq_iff hc]; split_ifs <;> rfl

theorem bankToken?_map_foldChar (cs : List Char) :
    bankToken? (cs.map foldChar) = (bankToken? cs).map (Prod.map (·.map foldChar) (·.map foldChar)) := by
  match cs with
  | [] | [_] => rfl
  | c :: d :: rest =>
    simp only [List.map_cons, bankToken?, sameLetter_foldChar c (l := 'r') (by decide), isDigit_foldChar]
    split_ifs
    · cases rest with
      | nil => simp
      | cons e rest' => simp only [List.map_cons, isDigit_foldChar]; split_ifs <;> simp
    · rfl

end C166Codec.Lexeme

namespace C166Codec.Literal

open Text

theorem significant_map_foldChar (ds : List Char) :
    significant (ds.map foldChar) = (significant ds).map foldChar := by
  match ds with
  | [] => rfl
  | [c] => simp [significant]
  | c :: d :: rest =>
    by_cases hc : c = '0'
    · subst hc
      have h0 : foldChar '0' = '0' := rfl
      simp only [List.map_cons, h0, significant, digitValue_foldChar]
      split_ifs <;> simp [h0]
    · have hc' : foldChar c ≠ '0' := (foldChar_eq_iff (d := '0') rfl).not.2 hc
      simp [significant, hc, hc']

/-- A literal has the same value whatever the case of its hexadecimal digits and suffix. -/
theorem parse_foldText (s : String) : (parse (foldText s)).toOption = (parse s).toOption := by
  unfold parse
  simp only [trim_foldText, toList_foldText]
  generalize (trim s).toList = cs
  match cs with
  | [c] =>
    simp only [List.map_cons, List.map_nil, isDigit_foldChar]
    rcases foldChar_cases c with h | ⟨h1, h2, -⟩
    · rw [h]
      split_ifs <;> simp [Except.toOption]
    · have hd : isDigit c = false := by
        simp only [isDigit, Bool.and_eq_false_imp, decide_eq_true_eq, decide_eq_false_iff_not,
          char_le_iff, Char.reduceToNat]
        omega
      simp [hd, Except.toOption]
  | [] => simp [Lexeme.hexDigits?, Except.toOption]
  | c :: d :: rest =>
    -- two characters or more: a hexadecimal literal, whose digits fold with the text
    rw [Lexeme.hexDigits?_map_foldChar]
    cases Lexeme.hexDigits? (c :: d :: rest) with
    | none => simp [Except.toOption]
    | some ds =>
      simp only [Option.map_some, List.length_map, Lexeme.hexValue_map_foldChar,
        significant_map_foldChar]
      split_ifs <;> simp [Except.toOption]

end C166Codec.Literal

/-! ## §3. Operands -/

namespace C166Codec

open Text

theorem Except.toOption_bind {ε α β : Type} (x : Except ε α) (f : α → Except ε β) :
    (x >>= f).toOption = x.toOption.bind fun a => (f a).toOption := by
  cases x <;> rfl

@[simp] theorem Except.toOption_error {ε α : Type} (e : ε) :
    (Except.error e : Except ε α).toOption = none :=
  rfl

theorem Except.toOption_map {ε α β : Type} (x : Except ε α) (f : α → β) :
    (x.map f).toOption = x.toOption.map f := by
  cases x <;> rfl

theorem SpecialRegister.named?_foldText (s : String) :
    SpecialRegister.named? (foldText s) = SpecialRegister.named? s := by
  simp only [SpecialRegister.named?, trim_foldText, upper_foldText]

theorem Register.parseGeneral?_foldText (s : String) :
    Register.parseGeneral? (foldText s) = Register.parseGeneral? s := by
  simp only [Register.parseGeneral?, trim_foldText, lower_foldText]

/-- Register names are found in either case. -/
theorem Register.lookup?_foldText (s : String) : Register.lookup? (foldText s) = Register.lookup? s := by
  simp only [Register.lookup?, Register.parseGeneral?_foldText, SpecialRegister.named?_foldText]

theorem Condition.parse?_foldText (s : String) : Condition.parse? (foldText s) = Condition.parse? s := by
  simp only [Condition.parse?, lower_foldText]

namespace Operand

open Lexeme

theorem indirectPattern?_map_foldChar (cs : List Char) :
    indirectPattern? (cs.map foldChar) = (indirectPattern? cs).map (·.map foldChar) := by
  simp only [indirectPattern?, expect_map_foldChar (c := '[') rfl,
    expect_map_foldChar (c := ']') rfl, skipGaps_map_foldChar,
    bankToken?_map_foldChar, Option.bind_eq_bind, Option.bind_map, Option.map_bind,
    Function.comp_def, Prod.map_fst, Prod.map_snd, List.isEmpty_map, apply_ite (Option.map _),
    Option.map_some, Option.map_none]

theorem postIncPattern?_map_foldChar (cs : List Char) :
    postIncPattern? (cs.map foldChar) = (postIncPattern? cs).map (·.map foldChar) := by
  simp only [postIncPattern?, expect_map_foldChar (c := '[') rfl,
    expect_map_foldChar (c := '+') rfl,
    expect_map_foldChar (c := ']') rfl, skipGaps_map_foldChar,
    bankToken?_map_foldChar, Option.bind_eq_bind, Option.bind_map, Option.map_bind,
    Function.comp_def, Prod.map_fst, Prod.map_snd, List.isEmpty_map, apply_ite (Option.map _),
    Option.map_some, Option.map_none]

theorem preDecPattern?_map_foldChar (cs : List Char) :
    preDecPattern? (cs.map foldChar) = (preDecPattern? cs).map (·.map foldChar) := by
  simp only [preDecPattern?, expect_map_foldChar (c := '[') rfl,
    expect_map_foldChar (c := '-') rfl,
    expect_map_foldChar (c := ']') rfl, skipGaps_map_foldChar,
    bankToken?_map_foldChar, Option.bind_eq_bind, Option.bind_map, Option.map_bind,
    Function.comp_def, Prod.map_fst, Prod.map_snd, List.isEmpty_map, apply_ite (Option.map _),
    Option.map_some, Option.map_none]

theorem indexedPattern?_map_foldChar (cs : List Char) :
    indexedPattern? (cs.map foldChar) =
      (indexedPattern? cs).map (Prod.map (·.map foldChar) (·.map foldChar)) := by
  -- the number runs up to a gap or the closing bracket, which folding leaves in place
  have hp : ∀ c, (!isGap (foldChar c) && foldChar c != ']') = (!isGap c && c != ']') := fun c => by
    rw [Bool.eq_iff_iff]
    simp only [isGap_foldChar, Bool.and_eq_true, bne_iff_ne, ne_eq,
      foldChar_eq_iff (d := ']') rfl]
  simp only [indexedPattern?, expect_map_foldChar (c := '[') rfl,
    expect_map_foldChar (c := '+') rfl,
    expect_map_foldChar (c := '#') rfl,
    expect_map_foldChar (c := ']') rfl, skipGaps_map_foldChar,
    bankToken?_map_foldChar, takeWhile_map_foldChar (p := fun c => !isGap c && c != ']') hp,
    dropWhile_map_foldChar (p := fun c => !isGap c && c != ']') hp,
    isNumber_map_foldChar, Option.bind_eq_bind, Option.bind_map, Option.map_bind,
    Function.comp_def, Prod.map_fst, Prod.map_snd, List.isEmpty_map, apply_ite (Option.map _),
    Option.map_some, Option.map_none, Prod.map_apply]

theorem isConditionToken_map_foldChar (cs : List Char) :
    isConditionToken (cs.map foldChar) = isConditionToken cs := by
  match cs with
  | a :: b :: c :: rest =>
    simp only [List.map_cons, isConditionToken]
    by_cases hc : c = '_'
    · subst hc
      simp only [show foldChar '_' = '_' from rfl,
        sameLetter_foldChar a (l := 'c') (by decide), sameLetter_foldChar b (l := 'c') (by decide),
        List.isEmpty_map, all_map_foldChar isFoldLetter_foldChar]
    · -- no underscore in third place: neither text is a condition token
      have hc' : foldChar c ≠ '_' := (foldChar_eq_iff (d := '_') rfl).not.2 hc
      split <;> split <;> simp_all
  | [] | [_] | [_, _] => rfl

theorem immediatePattern?_map_foldChar (cs : List Char) :
    immediatePattern? (cs.map foldChar) = (immediatePattern? cs).map (·.map foldChar) := by
  match cs with
  | c :: rest =>
    by_cases hc : c = '#'
    · subst hc
      have hg : ∀ c, (!isGap (foldChar c)) = !isGap c := fun c => by rw [isGap_foldChar]
      simp only [List.map_cons, show foldChar '#' = '#' from rfl, immediatePattern?,
        skipGaps_map_foldChar, List.isEmpty_map, all_map_foldChar (p := fun c => !isGap c) hg]
      split_ifs <;> rfl
    · have hc' : foldChar c ≠ '#' := (foldChar_eq_iff (d := '#') rfl).not.2 hc
      rw [List.map_cons, immediatePattern?.eq_2 _ (by simp [hc']),
        immediatePattern?.eq_2 _ (by simp [hc])]
      rfl
  | [] => rfl

theorem relativePattern?_map_foldChar (cs : List Char) :
    relativePattern? (cs.map foldChar) = (relativePattern? cs).map (Prod.map id (·.map foldChar)) := by
  cases cs with
  | nil => rfl
  | cons c rest =>
    simp only [List.map_cons, relativePattern?, foldChar_eq_iff (d := '+') rfl,
      foldChar_eq_iff (d := '-') rfl, skipGaps_map_foldChar, isNumber_map_foldChar]
    split_ifs <;> rfl

theorem bitAddrPattern?_map_foldChar (cs : List Char) :
    bitAddrPattern? (cs.map foldChar) =
      (bitAddrPattern? cs).map (Prod.map (·.map foldChar) (·.map foldChar)) := by
  have hp : ∀ c, (foldChar c != '.') = (c != '.') := fun c => by
    rw [Bool.eq_iff_iff]
    simp only [bne_iff_ne, ne_eq, foldChar_eq_iff (d := '.') rfl]
  unfold bitAddrPattern?
  rw [takeWhile_map_foldChar (p := (· != '.')) hp, dropWhile_map_foldChar (p := (· != '.')) hp]
  cases cs.dropWhile (· != '.') with
  | nil => rfl
  | cons d ds =>
    by_cases hd : d = '.'
    · subst hd
      simp only [List.map_cons, show foldChar '.' = '.' from rfl, List.length_map,
        all_map_foldChar isDigit_foldChar, isName_map_foldChar, isHex_map_foldChar, List.head?_map,
        Option.map_map, Function.comp_def, isDigit_foldChar]
      split_ifs <;> rfl
    · have hd' : foldChar d ≠ '.' := (foldChar_eq_iff (d := '.') rfl).not.2 hd
      simp only [List.map_cons]
      split <;> split <;> simp_all

theorem indexRegister_map_foldChar (reg : List Char) :
    (indexRegister (reg.map foldChar)).toOption = (indexRegister reg).toOption := by
  unfold indexRegister
  rw [← foldText_ofList, Register.parseGeneral?_foldText]
  split <;> simp [Except.toOption]

theorem parseIndirect_map_foldChar (t t' : String) (cs : List Char) :
    (parseIndirect t' (cs.map foldChar)).toOption = (parseIndirect t cs).toOption := by
  unfold parseIndirect
  rw [indexedPattern?_map_foldChar]
  cases indexedPattern? cs with
  | some p =>
    simp only [Option.map_some, Prod.map_fst, Prod.map_snd, Except.toOption_bind, ← foldText_ofList,
      Literal.parse_foldText, indexRegister_map_foldChar]
  | none =>
    rw [Option.map_none, indirectPattern?_map_foldChar]
    cases indirectPattern? cs with
    | some reg => simp only [Option.map_some, Except.toOption_bind, indexRegister_map_foldChar]
    | none =>
      rw [Option.map_none, postIncPattern?_map_foldChar]
      cases postIncPattern? cs with
      | some reg => simp only [Option.map_some, Except.toOption_bind, indexRegister_map_foldChar]
      | none =>
        rw [Option.map_none, preDecPattern?_map_foldChar]
        cases preDecPattern? cs with
        | some reg => simp only [Option.map_some, Except.toOption_bind, indexRegister_map_foldChar]
        | none => simp [Except.toOption]

theorem parseBitWord_foldText (w : String) :
    (parseBitWord (foldText w)).toOption = (parseBitWord w).toOption := by
  unfold parseBitWord
  rw [Register.lookup?_foldText]
  split
  · rfl
  · split_ifs <;> rfl
  · simp only [Except.toOption_bind, Literal.parse_foldText, apply_ite Except.toOption,
      Except.toOption_error]

theorem parseBitAddr_map_foldChar (word digits : List Char) (h : digits.all isDigit = true) :
    (parseBitAddr (word.map foldChar) (digits.map foldChar)).toOption =
      (parseBitAddr word digits).toOption := by
  unfold parseBitAddr
  rw [map_foldChar_of_all_isDigit h, ← foldText_ofList]
  simp only [Except.toOption_bind, parseBitWord_foldText, apply_dite Except.toOption,
    Except.toOption_error]

theorem all_isDigit_of_bitAddrPattern? {cs word digits : List Char}
    (h : bitAddrPattern? cs = some (word, digits)) : digits.all isDigit = true := by
  unfold bitAddrPattern? at h
  split at h
  · dsimp only at h
    split_ifs at h with hc
    cases h
    simp only [Bool.and_eq_true] at hc
    exact hc.1.2
  · cases h

theorem parsePlain_foldText (t : String) {cs : List Char} (hcs : t.toList = cs) :
    (parsePlain (foldText t) (cs.map foldChar)).toOption = (parsePlain t cs).toOption := by
  unfold parsePlain
  rw [Register.lookup?_foldText]
  split
  · rfl
  · rw [isConditionToken_map_foldChar]
    by_cases hcond : isConditionToken cs = true
    · rw [if_pos hcond, if_pos hcond, Condition.parse?_foldText]
      split <;> rfl
    · rw [if_neg hcond, if_neg hcond, immediatePattern?_map_foldChar]
      cases immediatePattern? cs with
      | some body =>
        simp only [Option.map_some, Except.toOption_bind, ← foldText_ofList, Literal.parse_foldText]
      | none =>
        rw [Option.map_none, bitAddrPattern?_map_foldChar]
        cases hb : bitAddrPattern? cs with
        | some p =>
          obtain ⟨word, digits⟩ := p
          exact parseBitAddr_map_foldChar word digits (all_isDigit_of_bitAddrPattern? hb)
        | none =>
          rw [Option.map_none, relativePattern?_map_foldChar]
          cases relativePattern? cs with
          | some p =>
            simp only [Option.map_some, Prod.map_fst, Prod.map_snd, id, Except.toOption_bind,
              ← foldText_ofList, Literal.parse_foldText]
          | none =>
            -- a number, a label or nothing readable: decided by folding-blind tests
            rw [Option.map_none, isNumber_map_foldChar, isName_map_foldChar, ← hcs]
            dsimp only
            split_ifs
            · simp only [Except.toOption_bind, Literal.parse_foldText]
            · simp [lower_foldText]
            · rfl

/-- An operand with its text folded: the form it was read as, and the folded text. -/
def foldRaw (o : Operand) : Operand := ⟨o.form, foldText o.raw⟩

/-- Reading an operand commutes with folding the case of its text: the form is the same, and
the text kept is folded. -/
theorem parse_foldText (s : String) :
    (Operand.parse (foldText s)).toOption = (Operand.parse s).toOption.map foldRaw := by
  unfold Operand.parse
  simp only [trim_foldText, toList_foldText]
  generalize trim s = t
  cases hcs : t.toList with
  | nil => rfl
  | cons c rest =>
    simp only [List.map_cons, foldChar_eq_iff (d := '[') rfl, Except.toOption_map]
    rw [← List.map_cons]
    split_ifs
    · rw [parseIndirect_map_foldChar t]
      cases (parseIndirect t (c :: rest)).toOption <;> rfl
    · rw [parsePlain_foldText t hcs]
      cases (parsePlain t (c :: rest)).toOption <;> rfl

end Operand

/-! ## §4. Statements -/

theorem Except.mapError_map {ε ε' α β : Type} (f : ε → ε') (g : α → β) (x : Except ε α) :
    (x.map g).mapError f = (x.mapError f).map g := by
  cases x <;> rfl

/-- A statement read from a line whose letters were folded: directive arguments and operand
texts are folded, the label and the mnemonic are already in lower case. -/
def Action.foldCase : Action → Action
  | .none => .none
  | .directive d args => .directive d (args.map foldText)
  | .instruction mn ops => .instruction mn (ops.map Operand.foldRaw)

namespace Statement

open Lexeme

theorem stripComment_go_map_foldChar (q : Bool) (cs : List Char) :
    stripComment.go q (cs.map foldChar) = (stripComment.go q cs).map foldChar := by
  induction cs generalizing q with
  | nil => rfl
  | cons c rest ih =>
    simp only [List.map_cons, stripComment.go, foldChar_eq_iff (d := '\'') rfl,
      foldChar_eq_iff (d := '"') rfl, foldChar_eq_iff (d := ';') rfl, ih]
    split_ifs <;> simp

theorem stripComment_map_foldChar (cs : List Char) :
    stripComment (cs.map foldChar) = (stripComment cs).map foldChar :=
  stripComment_go_map_foldChar false cs

theorem splitOperands_go_map_foldChar (level : Int) (q : Bool) (cur cs : List Char) :
    splitOperands.go level q (cur.map foldChar) (cs.map foldChar) =
      (splitOperands.go level q cur cs).map foldText := by
  induction cs generalizing level q cur with
  | nil =>
    simp [splitOperands.go, ← List.map_reverse, ← foldText_ofList, trim_foldText]
  | cons c rest ih =>
    -- a separating comma starts the next part from nothing, which folds to nothing
    have ih0 := ih level q []
    rw [List.map_nil] at ih0
    simp only [List.map_cons, splitOperands.go, foldChar_eq_iff (d := '\'') rfl,
      foldChar_eq_iff (d := '"') rfl, foldChar_eq_iff (d := '[') rfl,
      foldChar_eq_iff (d := ']') rfl, foldChar_eq_iff (d := ',') rfl]
    split_ifs <;>
      simp [← List.map_cons, ih, ih0, ← List.map_reverse, ← foldText_ofList, trim_foldText]

/-- Folding moves no separator: a folded line splits into the folded operands. -/
theorem splitOperands_map_foldChar (cs : List Char) :
    splitOperands (cs.map foldChar) = (splitOperands cs).map foldText :=
  splitOperands_go_map_foldChar 0 false [] cs

theorem labelDefinition?_map_foldChar (cs : List Char) :
    labelDefinition? (cs.map foldChar) =
      (labelDefinition? cs).map (Prod.map (·.map foldChar) (·.map foldChar)) := by
  have hu : ∀ c, foldChar c = '_' ↔ c = '_' := fun c => foldChar_eq_iff rfl
  have hp : ∀ d, (isAsciiLetter (foldChar d) || isDigit (foldChar d) || foldChar d = '_') =
      (isAsciiLetter d || isDigit d || d = '_') := fun d => by
    simp only [isAsciiLetter_foldChar, isDigit_foldChar, hu]
  cases cs with
  | nil => rfl
  | cons c rest =>
    simp only [List.map_cons, labelDefinition?, isAsciiLetter_foldChar, hu,
      takeWhile_map_foldChar (p := fun d => isAsciiLetter d || isDigit d || d = '_') hp,
      dropWhile_map_foldChar (p := fun d => isAsciiLetter d || isDigit d || d = '_') hp,
      skipGaps_map_foldChar]
    split_ifs
    · -- the name and the text after it fold; the colon is the same character
      cases skipGaps (rest.dropWhile fun d => isAsciiLetter d || isDigit d || d = '_') with
      | nil => rfl
      | cons d more =>
        by_cases hd : d = ':'
        · subst hd
          rfl
        · have hd' : foldChar d ≠ ':' := (foldChar_eq_iff (d := ':') rfl).not.2 hd
          simp only [List.map_cons]
          split <;> split <;> simp_all
    · rfl

theorem splitMnemonic_map_foldChar (cs : List Char) :
    splitMnemonic (cs.map foldChar) = Prod.map (·.map foldChar) (·.map foldChar) (splitMnemonic cs) := by
  have hp : ∀ c, (foldChar c != ' ' && foldChar c != '\t') = (c != ' ' && c != '\t') := fun c => by
    rw [Bool.eq_iff_iff]
    simp only [Bool.and_eq_true, bne_iff_ne, ne_eq, foldChar_eq_iff (d := ' ') rfl,
      foldChar_eq_iff (d := '\t') rfl]
  simp only [splitMnemonic, takeWhile_map_foldChar (p := fun c => c != ' ' && c != '\t') hp,
    dropWhile_map_foldChar (p := fun c => c != ' ' && c != '\t') hp, trimChars_map_foldChar,
    Prod.map_apply]

/-- The statement with its directive arguments and operand texts folded. -/
def foldCase (st : Statement) : Statement := ⟨st.label, st.action.foldCase⟩

theorem parseOperands_map_foldText (ss : List String) :
    (parseOperands (ss.map foldText)).mapError SourceError.errorClass =
      ((parseOperands ss).map (·.map Operand.foldRaw)).mapError SourceError.errorClass := by
  induction ss with
  | nil => rfl
  | cons s rest ih =>
    have hs := Operand.parse_foldText s
    simp only [List.map_cons, parseOperands]
    cases h : Operand.parse s with
    | error f =>
      cases h' : Operand.parse (foldText s) with
      | error f' => rfl
      | ok o' => simp [h, h', Except.toOption] at hs
    | ok o =>
      have h' : Operand.parse (foldText s) = .ok o.foldRaw := by
        cases h'' : Operand.parse (foldText s) <;> simp_all [Except.toOption]
      rw [h']
      cases h1 : parseOperands (rest.map foldText) <;> cases h2 : parseOperands rest <;>
        simp_all [Except.mapError, Except.map]

theorem parseAction_map_foldChar (cs : List Char) :
    (parseAction (cs.map foldChar)).mapError SourceError.errorClass =
      ((parseAction cs).map Action.foldCase).mapError SourceError.errorClass := by
  unfold parseAction
  rw [List.isEmpty_map, splitMnemonic_map_foldChar]
  by_cases he : cs.isEmpty
  · simp only [he, if_true]
    rfl
  · simp only [he, Bool.false_eq_true, if_false]
    obtain ⟨mn, rest⟩ := splitMnemonic cs
    simp only [Prod.map_apply, ← foldText_ofList, lower_foldText, List.isEmpty_map]
    cases Directive.ofName? (lower (String.ofList mn)) with
    | some d =>
      by_cases hr : rest.isEmpty
      · simp only [hr, if_true]
        rfl
      · simp only [hr, Bool.false_eq_true, if_false, splitOperands_map_foldChar]
        rfl
    | none =>
      by_cases hd : (Descriptor.byMnemonic (lower (String.ofList mn))).isEmpty
      · simp only [hd, if_true]
        rfl
      · by_cases hr : rest.isEmpty
        · simp only [hd, hr, Bool.false_eq_true, if_false, if_true]
          rfl
        · simp only [hd, hr, Bool.false_eq_true, if_false, splitOperands_map_foldChar,
            Except.mapError_map, parseOperands_map_foldText]
          cases parseOperands (splitOperands rest) <;> rfl

theorem dropCR_map_foldChar (line : List Char) :
    (if (line.map foldChar).getLast? = some '\r' then (line.map foldChar).dropLast
      else line.map foldChar) =
      (if line.getLast? = some '\r' then line.dropLast else line).map foldChar := by
  have hcr : (line.map foldChar).getLast? = some '\r' ↔ line.getLast? = some '\r' := by
    rw [List.getLast?_map]
    cases line.getLast? with
    | none => simp
    | some c => simp [foldChar_eq_iff (d := '\r') rfl]
  by_cases h : line.getLast? = some '\r'
  · rw [if_pos (hcr.2 h), if_pos h, List.map_dropLast]
  · rw [if_neg (mt hcr.1 h), if_neg h]

/-- Reading a folded line gives the folded statement, or an error of the same class. -/
theorem parse_map_foldChar (line : List Char) :
    (parse (line.map foldChar)).mapError SourceError.errorClass =
      ((parse line).map foldCase).mapError SourceError.errorClass := by
  unfold parse
  simp only [dropCR_map_foldChar, stripComment_map_foldChar, trimChars_map_foldChar,
    labelDefinition?_map_foldChar]
  generalize trimChars (stripComment (if line.getLast? = some '\r' then line.dropLast else line)) = cs
  cases labelDefinition? cs with
  | none =>
    simp only [Option.map_none, Except.mapError_map, parseAction_map_foldChar]
    cases parseAction cs <;> rfl
  | some p =>
    obtain ⟨name, rest⟩ := p
    simp only [Option.map_some, Prod.map_apply, isHex_map_foldChar]
    by_cases hh : isHex name
    · simp only [hh, if_true]
      rfl
    · simp only [hh, Bool.false_eq_true, if_false, ← foldText_ofList, lower_foldText,
        trimChars_map_foldChar, Except.mapError_map, parseAction_map_foldChar]
      cases parseAction (trimChars rest) <;> rfl

theorem isLineEnd_foldChar (c : Char) :
    (foldChar c = '\n' || foldChar c = '\x00') = (c = '\n' || c = '\x00') := by
  simp only [foldChar_eq_iff (d := '\n') rfl, foldChar_eq_iff (d := '\x00') rfl]

theorem breakLine_map_foldChar (cs : List Char) :
    breakLine (cs.map foldChar) =
      ((breakLine cs).1.map foldChar, (breakLine cs).2.1, (breakLine cs).2.2.map foldChar) := by
  induction cs with
  | nil => rfl
  | cons c rest ih =>
    simp only [List.map_cons, breakLine, isLineEnd_foldChar, ih]
    split <;> rfl

theorem lines_go_map_foldChar (cur cs : List Char) :
    lines.go (cur.map foldChar) (cs.map foldChar) = (lines.go cur cs).map (·.map foldChar) := by
  induction cs generalizing cur with
  | nil =>
    by_cases h : cur.isEmpty
    · simp [lines.go, h]
    · simp [lines.go, h, List.map_reverse]
  | cons c rest ih =>
    simp only [List.map_cons, lines.go, isLineEnd_foldChar]
    split
    · have ih0 := ih []
      rw [List.map_nil] at ih0
      rw [ih0, List.map_cons, List.map_reverse]
    · rw [← List.map_cons, ih]

/-- Folding a text folds each of its lines. -/
theorem lines_map_foldChar (cs : List Char) :
    lines (cs.map foldChar) = (lines cs).map (·.map foldChar) :=
  lines_go_map_foldChar [] cs

end Statement

end C166Codec
