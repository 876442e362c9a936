import Mathlib
import C166Codec.Source.Number
/-!
# Hexadecimal text read back

A listing writes numbers as upper-case hexadecimal with a least width (`Text.upperHex`); the
assembler reads them back as literals (`Literal.parse`). This module shows that the two agree:

* the digits of `upperHex` are hex digits whose value is the number (`hexValue_upperHex`);
* a number written with four digits and an `h` reads back as itself and is wide
  (`parse_upperHex_wide`); written with two digits it is narrow exactly when it fits a byte
  (`parse_upperHex_two`);
* a single decimal digit reads back as itself, narrow (`parse_digit`).

Trimming leaves such texts alone (`trimChars_eq_self`), since they neither start nor end with a
blank.
-/

namespace C166Codec

namespace Text

/-! ## §1. Characters and trimming -/

/-- Characters are ordered by their code points. -/
theorem char_le_iff {a b : Char} : a ≤ b ↔ a.toNat ≤ b.toNat := by
  rw [Char.le_def, UInt32.le_iff_toNat_le]
  rfl

/-- A list with no blank at its front loses nothing to `dropWhile isWhite`. -/
theorem dropWhile_isWhite_of_head {cs : List Char} (h : ∀ c ∈ cs.head?, isWhite c = false) :
    cs.dropWhile isWhite = cs := by
  cases cs with
  | nil => rfl
  | cons c rest => simp [h c rfl]

/-- Characters that neither start nor end with a blank are their own trimming. -/
theorem trimChars_eq_self {cs : List Char} (h1 : ∀ c ∈ cs.head?, isWhite c = false)
    (h2 : ∀ c ∈ cs.getLast?, isWhite c = false) : trimChars cs = cs := by
  have h2' : ∀ c ∈ cs.reverse.head?, isWhite c = false := by
    simpa [List.head?_reverse] using h2
  simp [trimChars, dropWhile_isWhite_of_head h1, dropWhile_isWhite_of_head h2']

/-- A text that neither starts nor ends with a blank is its own trimming. -/
theorem trim_eq_self {s : String} (h1 : ∀ c ∈ s.toList.head?, isWhite c = false)
    (h2 : ∀ c ∈ s.toList.getLast?, isWhite c = false) : trim s = s := by
  simp [trim, trimChars_eq_self h1 h2]

/-! ## §2. Digits -/

/-- The upper-case digit of a number below 16 is a hex digit of that value. -/
theorem digitChar_toUpper : ∀ d, d < 16 →
    Lexeme.digitValue (Nat.digitChar d).toUpper = d ∧ isHexDigit (Nat.digitChar d).toUpper = true
  | 0, _ | 1, _ | 2, _ | 3, _ | 4, _ | 5, _ | 6, _ | 7, _ | 8, _ | 9, _ | 10, _ | 11, _ | 12, _
  | 13, _ | 14, _ | 15, _ => by decide
  | _ + 16, h => absurd h (by omega)

/-- Only the digit of zero is `0`. -/
theorem digitChar_toUpper_ne_zero : ∀ d, 0 < d → d < 16 → (Nat.digitChar d).toUpper ≠ '0'
  | 1, _, _ | 2, _, _ | 3, _, _ | 4, _, _ | 5, _, _ | 6, _, _ | 7, _, _ | 8, _, _ | 9, _, _
  | 10, _, _ | 11, _, _ | 12, _, _ | 13, _, _ | 14, _, _ | 15, _, _ => by decide
  | 0, h, _ => absurd h (by omega)
  | _ + 16, _, h => absurd h (by omega)

theorem hexValue_append_digit (ds : List Char) (c : Char) :
    Lexeme.hexValue (ds ++ [c]) = 16 * Lexeme.hexValue ds + Lexeme.digitValue c := by
  simp [Lexeme.hexValue, List.foldl_append]

theorem hexValue_replicate_zero (k : Nat) (ds : List Char) :
    Lexeme.hexValue (List.replicate k '0' ++ ds) = Lexeme.hexValue ds := by
  -- the leading zeros keep the running value at 0
  have hz : ∀ k, (List.replicate k '0').foldl (fun n c => 16 * n + Lexeme.digitValue c) 0 = 0 := by
    intro k
    induction k with
    | zero => rfl
    | succ k ih => simpa [List.replicate_succ, Lexeme.digitValue, isDigit] using ih
  simp [Lexeme.hexValue, List.foldl_append, hz]

theorem hexDigits_eq (n : Nat) : hexDigits true n = (Nat.toDigits 16 n).map Char.toUpper := by
  simp [hexDigits]

/-- The hexadecimal digits of a number are hex digits, and read back as the number. -/
theorem hexDigits_spec (n : Nat) :
    Lexeme.hexValue (hexDigits true n) = n ∧ ∀ c ∈ hexDigits true n, isHexDigit c = true := by
  induction n using Nat.strongRecOn with
  | ind n ih =>
    rw [hexDigits_eq, Nat.toDigits_eq_if (by decide)]
    by_cases hn : n < 16
    · have hd := digitChar_toUpper n hn
      simp [hn, Lexeme.hexValue, hd.1, hd.2]
    · -- the digits of `n / 16`, then the digit of `n % 16`
      have hq := ih (n / 16) (by omega)
      have hd := digitChar_toUpper (n % 16) (by omega)
      rw [hexDigits_eq] at hq
      rw [if_neg hn, List.map_append, List.map_singleton]
      refine ⟨?_, ?_⟩
      · rw [hexValue_append_digit, hq.1, hd.1]
        omega
      · simp only [List.mem_append, List.mem_singleton]
        rintro c (hc | rfl)
        · exact hq.2 c hc
        · exact hd.2

/-- The leading digit of a positive number is not `0`. -/
theorem head_hexDigits {n : Nat} (hn : 0 < n) : (hexDigits true n).head? ≠ some '0' := by
  induction n using Nat.strongRecOn with
  | ind n ih =>
    rw [hexDigits_eq, Nat.toDigits_eq_if (by decide)]
    by_cases hlt : n < 16
    · simpa [hlt] using digitChar_toUpper_ne_zero n hn hlt
    · have hq := ih (n / 16) (by omega) (by omega)
      rw [hexDigits_eq] at hq
      rw [if_neg hlt, List.map_append, List.head?_append]
      obtain ⟨x, l, hx⟩ := List.exists_cons_of_ne_nil (Nat.toDigits_ne_nil (b := 16) (n := n / 16))
      rw [hx] at hq ⊢
      simpa using hq

/-- Every digit of a number is the upper-case digit of a value below 16. -/
theorem mem_hexDigits {n : Nat} {c : Char} (h : c ∈ hexDigits true n) :
    ∃ d < 16, c = (Nat.digitChar d).toUpper := by
  induction n using Nat.strongRecOn with
  | ind n ih =>
    rw [hexDigits_eq, Nat.toDigits_eq_if (by decide)] at h
    by_cases hn : n < 16
    · simp only [hn, if_true, List.map_cons, List.map_nil, List.mem_singleton] at h
      exact ⟨n, hn, h⟩
    · simp only [hn, if_false, List.map_append, List.map_cons, List.map_nil, List.mem_append,
        List.mem_singleton] at h
      rcases h with h | h
      · exact ih (n / 16) (by omega) (by rw [hexDigits_eq]; exact h)
      · exact ⟨n % 16, by omega, h⟩

theorem length_hexDigits_pos (n : Nat) : 0 < (hexDigits true n).length := by
  simpa [hexDigits] using Nat.length_toDigits_pos

/-- A number below `16 ^ k` has at most `k` hexadecimal digits. -/
theorem length_hexDigits_le {n k : Nat} (hk : 0 < k) (hn : n < 16 ^ k) :
    (hexDigits true n).length ≤ k := by
  simpa [hexDigits] using (Nat.length_toDigits_le_iff (by decide) hk).mpr hn

/-- A number from `16 ^ k` up has more than `k` hexadecimal digits. -/
theorem lt_length_hexDigits {n k : Nat} (hk : 0 < k) (hn : 16 ^ k ≤ n) :
    k < (hexDigits true n).length := by
  have h := mt (Nat.length_toDigits_le_iff (b := 16) (n := n) (by decide) hk).mp (by omega)
  simpa [hexDigits] using h

theorem toList_upperHex (w n : Nat) :
    (upperHex w n).toList = List.replicate (w - (hexDigits true n).length) '0' ++ hexDigits true n := by
  simp [upperHex]

theorem hexValue_upperHex (w n : Nat) : Lexeme.hexValue (upperHex w n).toList = n := by
  rw [toList_upperHex, hexValue_replicate_zero, (hexDigits_spec n).1]

theorem isHexDigit_of_mem_upperHex {w n : Nat} {c : Char} (h : c ∈ (upperHex w n).toList) :
    isHexDigit c = true := by
  rw [toList_upperHex, List.mem_append] at h
  rcases h with h | h
  · rw [List.eq_of_mem_replicate h]; rfl
  · exact (hexDigits_spec n).2 c h

/-- Every character of `upperHex` is the upper-case digit of a value below 16. -/
theorem mem_upperHex {w n : Nat} {c : Char} (h : c ∈ (upperHex w n).toList) :
    ∃ d < 16, c = (Nat.digitChar d).toUpper := by
  rw [toList_upperHex, List.mem_append] at h
  rcases h with h | h
  · exact ⟨0, by decide, by rw [List.eq_of_mem_replicate h]; rfl⟩
  · exact mem_hexDigits h

theorem length_upperHex (w n : Nat) :
    (upperHex w n).toList.length = max w (hexDigits true n).length := by
  rw [toList_upperHex]
  simp only [List.length_append, List.length_replicate]
  omega

end Text

/-! ## §3. Literals -/

namespace Literal

open Text

/-- A hex digit is no blank. -/
theorem isWhite_of_isHexDigit {c : Char} (h : isHexDigit c = true) : isWhite c = false := by
  simp only [isHexDigit, isDigit, Bool.or_eq_true, Bool.and_eq_true, decide_eq_true_eq,
    char_le_iff, Char.reduceToNat] at h
  simp only [isWhite]
  rcases h with (⟨h1, h2⟩ | ⟨h1, h2⟩) | ⟨h1, h2⟩ <;> simp <;> omega

/-- The digits and `h` of a hexadecimal literal. -/
theorem hexDigits?_append_h {ds : List Char} (hne : ds ≠ [])
    (hd : ∀ c ∈ ds, isHexDigit c = true) : Lexeme.hexDigits? (ds ++ ['h']) = some ds := by
  have hall : ds.reverse.all isHexDigit = true := by simpa using hd
  simp [Lexeme.hexDigits?, hne, hall, sameLetter]

/-- A literal of hex digits and an `h`, at most eight digits, reads back as its value. -/
theorem parse_hexText {ds : List Char} (h2 : 2 ≤ ds.length) (h8 : ds.length ≤ 8)
    (hd : ∀ c ∈ ds, isHexDigit c = true) :
    parse (String.ofList (ds ++ ['h'])) =
      .ok ⟨Lexeme.hexValue ds, decide ((significant ds).length > 2)⟩ := by
  have hne : ds ≠ [] := by rintro rfl; simp at h2
  have hhead : ∀ c ∈ (ds ++ ['h']).head?, isWhite c = false := by
    intro c hc
    obtain ⟨x, l, rfl⟩ := List.exists_cons_of_ne_nil hne
    simp only [List.cons_append, List.head?_cons, Option.mem_def, Option.some.injEq] at hc
    subst hc
    exact isWhite_of_isHexDigit (hd _ List.mem_cons_self)
  have hlast : ∀ c ∈ (ds ++ ['h']).getLast?, isWhite c = false := by
    intro c hc
    simp only [List.getLast?_append, List.getLast?_singleton, Option.some_or,
      Option.mem_def, Option.some.injEq] at hc
    subst hc
    decide
  have htrim : trimChars (ds ++ ['h']) = ds ++ ['h'] := trimChars_eq_self hhead hlast
  -- the text has at least three characters, so it is not a single decimal digit
  obtain ⟨a, b, rest, rfl⟩ : ∃ a b rest, ds = a :: b :: rest := by
    match ds, h2 with
    | a :: b :: rest, _ => exact ⟨a, b, rest, rfl⟩
  have hhex := hexDigits?_append_h hne hd
  simp only [List.cons_append] at htrim hhex
  simp only [parse, trim, String.toList_ofList, List.cons_append, htrim, hhex]
  rw [if_neg (Nat.not_lt.mpr h8)]

/-- A list that does not start with `0` is all significant. -/
theorem significant_of_head {ds : List Char} (h : ds.head? ≠ some '0') : significant ds = ds := by
  unfold significant
  split
  · simp at h
  · rfl

/-- `significant` drops at most the one leading `0`. -/
theorem length_significant (ds : List Char) :
    ds.length - 1 ≤ (significant ds).length ∧ (significant ds).length ≤ ds.length := by
  unfold significant
  split
  · split <;> simp
  · omega

/-- The text of `upperHex` and an `h`, as one list of characters. -/
theorem upperHex_append_h (w n : Nat) :
    upperHex w n ++ "h" = String.ofList ((upperHex w n).toList ++ ['h']) := by
  simp

/-- A number written with four to eight hex digits and an `h` reads back as itself, wide. -/
theorem parse_upperHex_wide {w n : Nat} (hw : 4 ≤ w) (hw8 : w ≤ 8) (hn : n < 16 ^ 8) :
    parse (upperHex w n ++ "h") = .ok ⟨n, true⟩ := by
  have hlen := length_upperHex w n
  have hdig := length_hexDigits_le (by decide) hn
  rw [upperHex_append_h, parse_hexText (by omega) (by omega)
    (fun c hc => isHexDigit_of_mem_upperHex hc), hexValue_upperHex]
  have := (length_significant (upperHex w n).toList).1
  simp only [Except.ok.injEq, Literal.mk.injEq, true_and]
  exact decide_eq_true (by omega)

/-- A number written with two hex digits and an `h` reads back as itself, narrow when it fits
a byte. -/
theorem parse_upperHex_two {n : Nat} (hn : n < 16 ^ 8) :
    parse (upperHex 2 n ++ "h") = .ok ⟨n, decide (256 ≤ n)⟩ := by
  have hlen := length_upperHex 2 n
  have hdig := length_hexDigits_le (by decide) hn
  have hpos := length_hexDigits_pos n
  rw [upperHex_append_h, parse_hexText (by omega) (by omega)
    (fun c hc => isHexDigit_of_mem_upperHex hc), hexValue_upperHex]
  have hsig := length_significant (upperHex 2 n).toList
  simp only [Except.ok.injEq, Literal.mk.injEq, true_and]
  by_cases hbig : 256 ≤ n
  · -- three or more digits, the first of them not `0`: all are significant
    have h3 := lt_length_hexDigits (k := 2) (by decide) (by simpa using hbig)
    have hpad : (upperHex 2 n).toList = hexDigits true n := by
      rw [toList_upperHex, Nat.sub_eq_zero_of_le (by omega)]
      rfl
    rw [hpad, significant_of_head (head_hexDigits (by omega))]
    simp only [hbig, decide_true]
    exact decide_eq_true (by omega)
  · -- two digits, of which `significant` keeps at most two
    have h2 : (hexDigits true n).length ≤ 2 := length_hexDigits_le (by decide) (by omega)
    simp only [hbig, decide_false]
    exact decide_eq_false (by omega)

/-- A digit below ten is a decimal digit character of that value. -/
theorem digitChar_decimal : ∀ n, n < 10 →
    isDigit (Nat.digitChar n) = true ∧ (Nat.digitChar n).toNat - 48 = n ∧
      isWhite (Nat.digitChar n) = false
  | 0, _ | 1, _ | 2, _ | 3, _ | 4, _ | 5, _ | 6, _ | 7, _ | 8, _ | 9, _ => by decide
  | _ + 10, h => absurd h (by omega)

/-- A single decimal digit reads back as itself, narrow. -/
theorem parse_digit {n : Nat} (hn : n < 10) : parse (toString n) = .ok ⟨n, false⟩ := by
  have hd := digitChar_decimal n hn
  have hs : (toString n).toList = [Nat.digitChar n] := by
    simp [Nat.toDigits_of_lt_base hn]
  have htrim : trimChars [Nat.digitChar n] = [Nat.digitChar n] :=
    trimChars_eq_self (by simp [hd.2.2]) (by simp [hd.2.2])
  simp only [parse, trim, hs, htrim, String.toList_ofList, hd.1, if_true, hd.2.1]

end Literal

end C166Codec
