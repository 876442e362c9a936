import C166Codec.Proofs.SlotText
import C166Codec.Proofs.ReportedLine
import C166Codec.Proofs.Selection
import C166Codec.Proofs.LabelNames
/-!
# An instruction's line reads back

`Render.line` writes an instruction as its mnemonic and its operand texts joined by `, `.
This module reads such a line back through the assembler's front end.

* `Statement.parse_line`: a line of a table mnemonic and standalone operand texts
  (`Render.Standalone`) parses to the instruction, with the operands its texts read as;
* `encodeLine_line`: `encodeLine` of such a line encodes those operands;
* `select_congr`: operands without a label are chosen and bound alike at every address and
  under any labels; only the ext window counts;
* `assemble_extLine`: the program `extr #1` and such a line assembles to the prefix's two
  bytes, then the line's bytes in the window the prefix opens.

Sections: §1 mnemonics, §2 joined operands, §3 the statement of a line, §4 selection without
labels, §5 the program behind an ext prefix.
-/

namespace C166Codec

/-! ## §1. Mnemonics of the table -/

namespace Text

/-- A character of a table mnemonic: a lower-case ASCII letter or a digit. -/
def isMnemonicChar (c : Char) : Bool := ('a' ≤ c && c ≤ 'z') || isDigit c

/-- A table mnemonic as text: a lower-case letter, then lower-case letters and digits. -/
def isMnemonicText : List Char → Bool
  | c :: cs => ('a' ≤ c && c ≤ 'z') && cs.all isMnemonicChar
  | [] => false

theorem isOperandChar_iff {c : Char} : isOperandChar c = true ↔
    c ≠ '\n' ∧ c ≠ '\x00' ∧ c ≠ ';' ∧ c ≠ '\'' ∧ c ≠ '"' ∧ c ≠ ',' ∧ c ≠ ':' := by
  simp [isOperandChar, and_assoc]

/-- The gaps between the parts of an operand are blanks. -/
theorem isGap_eq_false {c : Char} (h : isWhite c = false) : isGap c = false := by
  cases hg : isGap c
  · rfl
  · simp only [isGap, Bool.or_eq_true, decide_eq_true_eq] at hg
    rcases hg with (((rfl | rfl) | rfl) | rfl) | rfl <;> exact absurd h (by decide)

theorem toNat_lt_of_isMnemonicChar {c : Char} (h : isMnemonicChar c = true) : c.toNat < 128 := by
  simp only [isMnemonicChar, isDigit, Bool.or_eq_true, Bool.and_eq_true, decide_eq_true_eq,
    char_le_iff, Char.reduceToNat] at h
  omega

/-- What a mnemonic character is not, checked over the ASCII characters: a blank, a space or
a tab, a bracket, or a character that ends an operand; it is a part of a label name and its
own lower case. -/
theorem mnemonicChar_table : ∀ n : Fin 128, isMnemonicChar (Char.ofNat n) = true →
    isWhite (Char.ofNat n) = false ∧ isOperandChar (Char.ofNat n) = true ∧
      (Char.ofNat n != ' ' && Char.ofNat n != '\t') = true ∧
      Statement.isLabelPart (Char.ofNat n) = true ∧ lowerChar (Char.ofNat n) = Char.ofNat n := by
  decide

theorem mnemonicChar_facts {c : Char} (h : isMnemonicChar c = true) :
    isWhite c = false ∧ isOperandChar c = true ∧ (c != ' ' && c != '\t') = true ∧
      Statement.isLabelPart c = true ∧ lowerChar c = c := by
  have := mnemonicChar_table ⟨c.toNat, toNat_lt_of_isMnemonicChar h⟩
  simp only [Char.ofNat_toNat] at this
  exact this h

theorem isMnemonicChar_of_isMnemonicText {cs : List Char} (h : isMnemonicText cs = true) :
    ∀ c ∈ cs, isMnemonicChar c = true := by
  match cs, h with
  | c :: rest, h =>
    simp only [isMnemonicText, Bool.and_eq_true, List.all_eq_true] at h
    intro d hd
    rcases List.mem_cons.mp hd with rfl | hd
    · simp [isMnemonicChar, h.1]
    · exact h.2 d hd

/-- A table mnemonic is its own lower case. -/
theorem lower_of_isMnemonicText {mn : String} (h : isMnemonicText mn.toList = true) :
    lower mn = mn := by
  have hmap : mn.toList.map lowerChar = mn.toList := by
    rw [List.map_congr_left fun c hc =>
      (mnemonicChar_facts (isMnemonicChar_of_isMnemonicText h c hc)).2.2.2.2, List.map_id']
  simp [lower, hmap]

end Text

namespace Descriptor

set_option maxRecDepth 100000 in
/-- Every mnemonic of the table is a lower-case letter, then lower-case letters and digits,
and names no data directive. -/
theorem mnemonic_table : (all.all fun d => d.mnemonics.all fun m =>
    Text.isMnemonicText m.toList && Directive.ofName? m == none) = true := by
  decide +kernel

theorem mnemonic_facts {d : Descriptor} (hd : d ∈ all) {m : String} (hm : m ∈ d.mnemonics) :
    Text.isMnemonicText m.toList = true ∧ Directive.ofName? m = none := by
  have h := mnemonic_table
  simp only [List.all_eq_true, Bool.and_eq_true, beq_iff_eq] at h
  exact h d hd m hm

/-- A mnemonic of an opcode of the table has that opcode among its candidates. -/
theorem mem_byMnemonic_of_mem {d : Descriptor} (hd : d ∈ all) {m : String} (hm : m ∈ d.mnemonics)
    (hlen : d.length = 2 ∨ d.length = 4) : d ∈ byMnemonic m := by
  simp only [byMnemonic, List.mem_append, List.mem_filter, List.contains_iff_mem, hm,
    decide_eq_true_eq, and_true]
  rcases hlen with h | h
  · exact .inl ⟨hd, h⟩
  · exact .inr ⟨hd, h⟩

end Descriptor

/-! ## §2. Operands joined by commas -/

namespace Render

open Text

theorem toList_join_cons_cons (o o' : String) (rest : List String) :
    (", ".intercalate (o :: o' :: rest)).toList =
      o.toList ++ ',' :: ' ' :: (", ".intercalate (o' :: rest)).toList := by
  rw [String.intercalate_cons_cons]
  simp

/-- The characters of joined operands: those of the operands, commas and spaces. -/
theorem mem_join {ops : List String} (hops : ∀ o ∈ ops, Standalone o) {c : Char}
    (hc : c ∈ (", ".intercalate ops).toList) : isOperandChar c = true ∨ c = ',' ∨ c = ' ' := by
  induction ops with
  | nil => simp at hc
  | cons o rest ih =>
    cases rest with
    | nil =>
      rw [String.intercalate_singleton] at hc
      exact .inl ((hops o List.mem_cons_self).chars c hc)
    | cons o' rest' =>
      rw [toList_join_cons_cons] at hc
      rcases List.mem_append.mp hc with hc | hc
      · exact .inl ((hops o List.mem_cons_self).chars c hc)
      · simp only [List.mem_cons] at hc
        rcases hc with rfl | rfl | hc
        · exact .inr (.inl rfl)
        · exact .inr (.inr rfl)
        · exact ih (fun x hx => hops x (List.mem_cons_of_mem o hx)) hc

theorem head?_join (o : String) (rest : List String) (ho : Standalone o) :
    (", ".intercalate (o :: rest)).toList.head? = o.toList.head? := by
  cases rest with
  | nil => rw [String.intercalate_singleton]
  | cons o' rest' =>
    rw [toList_join_cons_cons, List.head?_append_of_ne_nil _ ho.ne_nil]

theorem getLast?_join {ops : List String} (hops : ∀ o ∈ ops, Standalone o) :
    ∀ c ∈ (", ".intercalate ops).toList.getLast?, isWhite c = false := by
  induction ops with
  | nil => simp
  | cons o rest ih =>
    cases rest with
    | nil =>
      rw [String.intercalate_singleton]
      exact (hops o List.mem_cons_self).last
    | cons o' rest' =>
      have hne : (", ".intercalate (o' :: rest')).toList ≠ [] := by
        intro h
        have hh := head?_join o' rest' (hops o' (by simp))
        rw [h, List.head?_nil, eq_comm, List.head?_eq_none_iff] at hh
        exact (hops o' (by simp)).ne_nil hh
      rw [toList_join_cons_cons, List.getLast?_append_of_ne_nil _ (by simp),
        List.getLast?_cons_cons, List.getLast?_cons, List.getLast?_eq_some_getLast hne]
      simp only [Option.getD_some]
      intro c hc
      apply ih (fun x hx => hops x (List.mem_cons_of_mem o hx))
      rw [List.getLast?_eq_some_getLast hne]
      exact hc

end Render

namespace Statement

open Text Render

/-- Text without commas or quotes goes to the current operand, its brackets counted. -/
theorem splitOperands_go_plain {xs : List Char} (hx : ∀ c ∈ xs, c ≠ ',' ∧ c ≠ '\'' ∧ c ≠ '"')
    (level : Int) (cur rest : List Char) :
    splitOperands.go level false cur (xs ++ rest) =
      splitOperands.go (level + xs.count '[' - xs.count ']') false (xs.reverse ++ cur) rest := by
  induction xs generalizing level cur with
  | nil => simp
  | cons c xs ih =>
    obtain ⟨hcomma, hq1, hq2⟩ := hx c List.mem_cons_self
    have hrest := ih (fun d hd => hx d (List.mem_cons_of_mem c hd))
    rw [List.cons_append, splitOperands.go]
    have hq : (c = '\'' || c = '"') = false := by simp [hq1, hq2]
    rw [if_neg (by simp [hq])]
    by_cases hopen : c = '['
    · subst hopen
      rw [if_pos rfl, hrest]
      simp only [List.count_cons_self, List.reverse_cons, List.append_assoc, List.cons_append,
        List.nil_append]
      congr 1
      simp only [List.count_cons, beq_iff_eq]
      push_cast; ring
    · rw [if_neg hopen]
      by_cases hclose : c = ']'
      · subst hclose
        rw [if_pos rfl, hrest]
        simp only [List.reverse_cons, List.append_assoc, List.cons_append, List.nil_append]
        congr 1
        simp only [List.count_cons, beq_iff_eq, if_true]
        push_cast; ring
      · rw [if_neg hclose, if_neg (by simp [hcomma]), hrest]
        simp only [List.reverse_cons, List.append_assoc, List.cons_append, List.nil_append]
        congr 1
        simp [hopen, hclose]

/-- Blanks in front of text that neither starts nor ends with a blank trim away. -/
theorem trimChars_white_append {w cs : List Char} (hw : ∀ c ∈ w, isWhite c = true)
    (h1 : ∀ c ∈ cs.head?, isWhite c = false) (h2 : ∀ c ∈ cs.getLast?, isWhite c = false) :
    trimChars (w ++ cs) = cs := by
  have hself := trimChars_eq_self h1 h2
  rw [trimChars, dropWhile_isWhite_of_head h1] at hself
  rw [trimChars, List.dropWhile_append_of_pos hw, dropWhile_isWhite_of_head h1, hself]

/-- Blanks in front of a standalone operand trim away. -/
theorem trim_white_append {w : List Char} (hw : ∀ c ∈ w, isWhite c = true) {o : String}
    (ho : Standalone o) : trim (String.ofList (w ++ o.toList)) = o := by
  simp [trim, trimChars_white_append hw ho.head ho.last]

/-- **Joined standalone operands split back into themselves**, whatever blanks stand before
the first. -/
theorem splitOperands_go_join (w : List Char) (hw : ∀ c ∈ w, isWhite c = true) {ops : List String}
    (hops : ∀ o ∈ ops, Standalone o) (hne : ops ≠ []) :
    splitOperands.go 0 false w (", ".intercalate ops).toList = ops := by
  -- induction on the operands, the blanks before each carried in the current text
  induction ops generalizing w with
  | nil => exact absurd rfl hne
  | cons o rest ih =>
    have ho := hops o List.mem_cons_self
    have hplain : ∀ c ∈ o.toList, c ≠ ',' ∧ c ≠ '\'' ∧ c ≠ '"' := by
      intro c hc
      obtain ⟨-, -, -, hq1, hq2, hcomma, -⟩ := isOperandChar_iff.mp (ho.chars c hc)
      exact ⟨hcomma, hq1, hq2⟩
    have hrev : ∀ c ∈ w.reverse, isWhite c = true := by simpa using hw
    have hbal : (0 : Int) + o.toList.count '[' - o.toList.count ']' = 0 := by
      rw [ho.brackets]; simp
    cases rest with
    | nil =>
      rw [String.intercalate_singleton, ← List.append_nil o.toList, splitOperands_go_plain hplain,
        hbal]
      simp only [splitOperands.go, List.reverse_append, List.reverse_reverse]
      rw [trim_white_append hrev ho]
    | cons o' rest' =>
      rw [toList_join_cons_cons, splitOperands_go_plain hplain, hbal]
      -- the comma at bracket level 0 ends the first operand; the space opens the next
      rw [splitOperands.go, if_neg (by decide), if_neg (by decide), if_neg (by decide),
        if_pos (by decide), splitOperands.go, if_neg (by decide), if_neg (by decide),
        if_neg (by decide), if_neg (by decide), List.reverse_append, List.reverse_reverse,
        trim_white_append hrev ho]
      congr 1
      exact ih [' '] (by simp [isWhite]) (fun x hx => hops x (List.mem_cons_of_mem o hx)) (by simp)

/-! ## §3. The statement of a line -/

/-- A text without line ends is one line, with no terminator. -/
theorem breakLine_of_noEnd {cs : List Char} (h : ∀ c ∈ cs, c ≠ '\n' ∧ c ≠ '\x00') :
    breakLine cs = (cs, false, []) := by
  induction cs with
  | nil => rfl
  | cons c rest ih =>
    obtain ⟨h1, h2⟩ := h c List.mem_cons_self
    rw [breakLine, if_neg (by simp [h1, h2]), ih fun d hd => h d (List.mem_cons_of_mem c hd)]

variable {mn : String} {ops : List String}

/-- The characters of an instruction's line: the mnemonic, then a space and the joined
operands when there are any. -/
theorem toList_line (mn : String) (ops : List String) :
    (line mn ops).toList =
      mn.toList ++ if ops = [] then [] else ' ' :: (", ".intercalate ops).toList := by
  cases ops with
  | nil => simp [line]
  | cons o rest => simp [line]

/-- No character of a line of a table mnemonic and standalone operands ends the line, starts a
comment or opens a quote. -/
theorem line_chars (hmn : isMnemonicText mn.toList = true) (hops : ∀ o ∈ ops, Standalone o) :
    ∀ c ∈ (line mn ops).toList, c ≠ '\n' ∧ c ≠ '\x00' ∧ c ≠ ';' ∧ c ≠ '\'' ∧ c ≠ '"' := by
  have hoper : ∀ c, isOperandChar c = true →
      c ≠ '\n' ∧ c ≠ '\x00' ∧ c ≠ ';' ∧ c ≠ '\'' ∧ c ≠ '"' := by
    intro c hc
    obtain ⟨h1, h2, h3, h4, h5, -⟩ := isOperandChar_iff.mp hc
    exact ⟨h1, h2, h3, h4, h5⟩
  intro c hc
  rw [toList_line] at hc
  rcases List.mem_append.mp hc with hc | hc
  · exact hoper c (mnemonicChar_facts (isMnemonicChar_of_isMnemonicText hmn c hc)).2.1
  · split at hc
    · cases hc
    · rcases List.mem_cons.mp hc with rfl | hc
      · decide
      · rcases mem_join hops hc with hc | rfl | rfl
        · exact hoper c hc
        · decide
        · decide

/-- A line starts with its mnemonic's first letter. -/
theorem line_head (hmn : isMnemonicText mn.toList = true) :
    ∀ c ∈ (line mn ops).toList.head?, isWhite c = false := by
  obtain ⟨m, mrest, hm⟩ : ∃ m mrest, mn.toList = m :: mrest := by
    cases h : mn.toList with
    | nil => simp [h, isMnemonicText] at hmn
    | cons m mrest => exact ⟨m, mrest, rfl⟩
  intro c hc
  rw [toList_line, hm, List.cons_append, List.head?_cons, Option.mem_some_iff] at hc
  subst hc
  exact (mnemonicChar_facts (isMnemonicChar_of_isMnemonicText hmn _ (by simp [hm]))).1

/-- A line ends with its last operand's last character, or its mnemonic's. -/
theorem line_last (hmn : isMnemonicText mn.toList = true) (hops : ∀ o ∈ ops, Standalone o) :
    ∀ c ∈ (line mn ops).toList.getLast?, isWhite c = false := by
  intro c hc
  rw [toList_line] at hc
  split at hc
  · rw [List.append_nil] at hc
    exact (mnemonicChar_facts (isMnemonicChar_of_isMnemonicText hmn c
      (List.mem_of_mem_getLast? hc))).1
  · rename_i hne
    obtain ⟨o, rest, rfl⟩ := List.exists_cons_of_ne_nil hne
    have hjoin : (", ".intercalate (o :: rest)).toList ≠ [] := by
      intro h
      have hh := head?_join o rest (hops o List.mem_cons_self)
      rw [h, List.head?_nil, eq_comm, List.head?_eq_none_iff] at hh
      exact (hops o List.mem_cons_self).ne_nil hh
    rw [List.getLast?_append_of_ne_nil _ (by simp), List.getLast?_cons,
      List.getLast?_eq_some_getLast hjoin, Option.getD_some] at hc
    apply getLast?_join hops
    rw [List.getLast?_eq_some_getLast hjoin]
    exact hc

/-- A line that starts with a table mnemonic defines no label: the mnemonic is followed by a
space and an operand, which never starts with `:`, or by nothing. -/
theorem labelDefinition?_line (hmn : isMnemonicText mn.toList = true)
    (hops : ∀ o ∈ ops, Standalone o) : labelDefinition? (line mn ops).toList = none := by
  obtain ⟨m, mrest, hm⟩ : ∃ m mrest, mn.toList = m :: mrest := by
    cases h : mn.toList with
    | nil => simp [h, isMnemonicText] at hmn
    | cons m mrest => exact ⟨m, mrest, rfl⟩
  have hpart : ∀ c ∈ mrest, isLabelPart c = true := by
    intro c hc
    exact (mnemonicChar_facts (isMnemonicChar_of_isMnemonicText hmn c (by simp [hm, hc]))).2.2.2.1
  have hstart : (isAsciiLetter m || m = '_') = true := by
    simp only [isMnemonicText, hm, Bool.and_eq_true, decide_eq_true_eq] at hmn
    simp [isAsciiLetter, hmn.1.1, hmn.1.2]
  have hlabel : (fun d => isAsciiLetter d || isDigit d || d = '_') = isLabelPart := rfl
  rw [toList_line, hm, List.cons_append, labelDefinition?, if_pos hstart]
  simp only [hlabel, List.dropWhile_append_of_pos hpart]
  cases ops with
  | nil => rfl
  | cons o rest =>
    -- after the space comes the first operand, whose first character is no colon
    have ho := hops o List.mem_cons_self
    obtain ⟨x, xs, hx⟩ : ∃ x xs, o.toList = x :: xs := List.exists_cons_of_ne_nil ho.ne_nil
    have hjoin := head?_join o rest ho
    rw [hx, List.head?_cons] at hjoin
    obtain ⟨ys, hy⟩ : ∃ ys, (", ".intercalate (o :: rest)).toList = x :: ys := by
      cases h : (", ".intercalate (o :: rest)).toList with
      | nil => simp [h] at hjoin
      | cons y ys => simp only [h, List.head?_cons, Option.some.injEq] at hjoin; exact ⟨ys, by rw [hjoin]⟩
    have hwhite := ho.head x (by simp [hx])
    have hcolon := (isOperandChar_iff.mp (ho.chars x (by simp [hx]))).2.2.2.2.2.2
    rw [if_neg (List.cons_ne_nil o rest), hy, List.dropWhile_cons_of_neg (by decide),
      Lexeme.skipGaps, List.dropWhile_cons_of_pos (by decide),
      List.dropWhile_cons_of_neg (by simp [isGap_eq_false hwhite])]
    split
    · rename_i heq
      simp only [List.cons.injEq] at heq
      exact absurd heq.1 hcolon
    · rfl

/-- The joined operands start and end with no blank. -/
theorem join_trimmed {o : String} {rest : List String} (hops : ∀ x ∈ o :: rest, Standalone x) :
    (∀ c ∈ (", ".intercalate (o :: rest)).toList.head?, isWhite c = false) ∧
      ∀ c ∈ (", ".intercalate (o :: rest)).toList.getLast?, isWhite c = false := by
  refine ⟨fun c hc => ?_, getLast?_join hops⟩
  rw [head?_join o rest (hops o List.mem_cons_self)] at hc
  exact (hops o List.mem_cons_self).head c hc

/-- A line splits at the space after its mnemonic, into the mnemonic and the joined
operands. -/
theorem splitMnemonic_line (hmn : isMnemonicText mn.toList = true)
    (hops : ∀ o ∈ ops, Standalone o) :
    splitMnemonic (line mn ops).toList =
      (mn.toList, if ops = [] then [] else (", ".intercalate ops).toList) := by
  have hmnc : ∀ c ∈ mn.toList, (c != ' ' && c != '\t') = true := fun c hc =>
    (mnemonicChar_facts (isMnemonicChar_of_isMnemonicText hmn c hc)).2.2.1
  rw [toList_line, splitMnemonic]
  simp only [List.takeWhile_append_of_pos hmnc, List.dropWhile_append_of_pos hmnc]
  cases ops with
  | nil => simp [trimChars]
  | cons o rest =>
    obtain ⟨h1, h2⟩ := join_trimmed hops
    simp only [reduceCtorEq, if_false, List.takeWhile_cons, List.dropWhile_cons]
    rw [if_neg (by decide), if_neg (by decide), List.append_nil, ← List.singleton_append,
      trimChars_white_append (by simp [isWhite]) h1 h2]

/-- **The line of a table mnemonic and standalone operands reads as the instruction**, with
the operands its texts read as. -/
theorem parseAction_line (hmn : isMnemonicText mn.toList = true)
    (hdir : Directive.ofName? mn = none) (hknown : (Descriptor.byMnemonic mn).isEmpty = false)
    (hops : ∀ o ∈ ops, Standalone o) {os : List Operand} (hparse : parseOperands ops = .ok os) :
    parseAction (line mn ops).toList = .ok (.instruction mn os) := by
  have hne : (line mn ops).toList.isEmpty = false := by
    cases h : mn.toList with
    | nil => simp [h, isMnemonicText] at hmn
    | cons m mrest => simp [toList_line, h]
  rw [parseAction, if_neg (by simp [hne]), splitMnemonic_line hmn hops]
  simp only [String.ofList_toList, lower_of_isMnemonicText hmn, hdir, hknown]
  cases ops with
  | nil =>
    simp only [parseOperands, Except.ok.injEq] at hparse
    subst hparse
    rfl
  | cons o rest =>
    have hjoin : (", ".intercalate (o :: rest)).toList.isEmpty = false := by
      cases h : (", ".intercalate (o :: rest)).toList with
      | nil =>
        have hh := head?_join o rest (hops o List.mem_cons_self)
        rw [h, List.head?_nil, eq_comm, List.head?_eq_none_iff] at hh
        exact absurd hh (hops o List.mem_cons_self).ne_nil
      | cons y ys => rfl
    simp only [reduceCtorEq, if_false, hjoin, Bool.false_eq_true]
    rw [splitOperands, splitOperands_go_join [] (by simp) hops (List.cons_ne_nil o rest), hparse]
    rfl

/-- **The line of a table mnemonic and standalone operands parses back** to the instruction,
with no label. -/
theorem parse_line (hmn : isMnemonicText mn.toList = true)
    (hdir : Directive.ofName? mn = none) (hknown : (Descriptor.byMnemonic mn).isEmpty = false)
    (hops : ∀ o ∈ ops, Standalone o) {os : List Operand} (hparse : parseOperands ops = .ok os) :
    parse (line mn ops).toList = .ok ⟨none, .instruction mn os⟩ := by
  have hchars := line_chars hmn hops
  have hlast := line_last hmn hops
  have hcr : (line mn ops).toList.getLast? ≠ some '\r' := fun h => by
    have := hlast '\r' h
    revert this; decide
  have hstrip : stripComment (line mn ops).toList = (line mn ops).toList :=
    stripComment_go_of_plain (fun c hc => ⟨(hchars c hc).2.2.1, (hchars c hc).2.2.2⟩) false
  have htrim : trimChars (line mn ops).toList = (line mn ops).toList :=
    trimChars_eq_self (line_head hmn) hlast
  rw [parse, if_neg hcr]
  simp only [hstrip, htrim, labelDefinition?_line hmn hops, parseAction_line hmn hdir hknown hops hparse]
  rfl

/-- `encodeLine` of the line of a table mnemonic and standalone operands encodes the
instruction. -/
theorem encodeLine_line (hmn : isMnemonicText mn.toList = true)
    (hdir : Directive.ofName? mn = none) (hknown : (Descriptor.byMnemonic mn).isEmpty = false)
    (hops : ∀ o ∈ ops, Standalone o) {os : List Operand} (hparse : parseOperands ops = .ok os) :
    encodeLine (line mn ops) = encode mn os := by
  have hchars := line_chars hmn hops
  rw [encodeLine, breakLine_of_noEnd fun c hc => ⟨(hchars c hc).1, (hchars c hc).2.1⟩]
  simp only [parse_line hmn hdir hknown hops hparse]
  rfl

end Statement

/-! ## §4. Selection without labels -/

namespace Select

variable {c c' : Context} {mn : String} {len : Nat} {o : Operand}

/-- Outside labels, whether an operand fits its slot depends on the context's window only. -/
theorem rangeFits_congr (he : c'.extended = c.extended) {k : SlotKind} (hk : kindFits k o = true)
    (hl : o.isLabel = false) : rangeFits c' mn len k o = rangeFits c mn len k o := by
  cases k <;> simp only [rangeFits, he]
  -- a displacement or code-address slot takes a number here, never a label
  case rel => cases hf : o.form <;> simp_all [kindFits, Operand.isLabel, displacement?]
  case caddr => cases hf : o.form <;> simp_all [kindFits, Operand.isLabel]

/-- Outside labels, binding an operand depends on the context's window only. -/
theorem bindSlot_congr (he : c'.extended = c.extended) {s : Slot} (hk : kindFits s.kind o = true)
    (hl : o.isLabel = false) (fs : Fields) :
    bindSlot c' mn len fs s o = bindSlot c mn len fs s o := by
  unfold bindSlot
  cases hks : s.kind <;> simp only [he]
  case rel =>
    rw [hks] at hk
    cases hf : o.form <;> simp_all [kindFits, Operand.isLabel, displacement?]
  case caddr =>
    rw [hks] at hk
    cases hf : o.form <;> simp_all [kindFits, Operand.isLabel]

theorem kindFits_of_accepts {d : Descriptor} {ops : List Operand} (h : accepts d ops c mn = true) :
    ∀ p ∈ d.shape.slots.zip ops, kindFits p.1.kind p.2 = true := by
  simp only [accepts, List.all_eq_true] at h
  simpa [Rule.check] using h .kind (by simp [Rule.all])

theorem bind_congr (he : c'.extended = c.extended) {d : Descriptor} {ops : List Operand}
    (hl : ∀ o ∈ ops, o.isLabel = false) (hk : ∀ p ∈ d.shape.slots.zip ops, kindFits p.1.kind p.2 = true) :
    bind d ops c' mn = bind d ops c mn := by
  unfold bind
  exact List.foldl_ext _ _ _ fun fs p hp =>
    bindSlot_congr he (hk p hp) (hl p.2 (List.of_mem_zip hp).2) fs

/-- Outside labels, whether an opcode accepts the operands depends on the window only: the
range rule and the embedded field, through binding, are the only rules that read the context. -/
theorem accepts_congr (he : c'.extended = c.extended) {d : Descriptor} {ops : List Operand}
    (hl : ∀ o ∈ ops, o.isLabel = false) : accepts d ops c' mn = accepts d ops c mn := by
  by_cases hkind : Rule.check .kind d ops c mn = true
  · have hk : ∀ p ∈ d.shape.slots.zip ops, kindFits p.1.kind p.2 = true := by
      simpa [Rule.check] using hkind
    have hrange : Rule.check .range d ops c' mn = Rule.check .range d ops c mn := by
      simp only [Rule.check]
      rw [Bool.eq_iff_iff, List.all_eq_true, List.all_eq_true]
      exact forall₂_congr fun p hp => by
        rw [rangeFits_congr he (hk p hp) (hl p.2 (List.of_mem_zip hp).2)]
    have hemb : Rule.check .embedded d ops c' mn = Rule.check .embedded d ops c mn := by
      simp only [Rule.check, bind_congr he hl hk]
    simp only [accepts, Rule.all, List.all_cons, List.all_nil, hrange, hemb]
    rfl
  · -- the kind rule does not read the context, and it fails in both
    have hsame : Rule.check .kind d ops c' mn = Rule.check .kind d ops c mn := rfl
    simp only [Bool.not_eq_true] at hkind
    simp [accepts, Rule.all, hkind, hsame]

end Select

/-- **Operands without a label select and bind alike in every context with the same window.** -/
theorem select_congr {c c' : Context} (he : c'.extended = c.extended) {ops : List Operand}
    (hl : ∀ o ∈ ops, o.isLabel = false) (mn : String) : select mn ops c' = select mn ops c := by
  have hacc : (fun d => Select.accepts d ops c' (Text.lower mn)) =
      fun d => Select.accepts d ops c (Text.lower mn) := funext fun d => Select.accepts_congr he hl
  have hnolabel : ∀ c₀ : Context,
      ops.find? (fun o => o.isLabel && !c₀.lax && (c₀.lookup o.label).isNone) = none := by
    intro c₀
    exact List.find?_eq_none.mpr fun o ho => by simp [hl o ho]
  unfold select
  simp only [hacc, hnolabel]
  split
  · rfl
  · split
    · rename_i d hf
      have hacc := List.find?_some hf
      rw [Select.bind_congr he hl (Select.kindFits_of_accepts hacc)]
    · rfl

theorem encodeIn_congr {c c' : Context} (he : c'.extended = c.extended) {ops : List Operand}
    (hl : ∀ o ∈ ops, o.isLabel = false) (mn : String) : encodeIn mn ops c' = encodeIn mn ops c := by
  simp only [encodeIn, select_congr he hl]

/-! ## §5. A line behind an ext prefix -/

namespace Statement

/-- A line end after text without line ends closes that line. -/
theorem lines_go_append {xs : List Char} (hx : ∀ c ∈ xs, c ≠ '\n' ∧ c ≠ '\x00') (cur ys : List Char) :
    lines.go cur (xs ++ '\n' :: ys) = (cur.reverse ++ xs) :: lines.go [] ys := by
  induction xs generalizing cur with
  | nil => simp [lines.go]
  | cons c rest ih =>
    obtain ⟨h1, h2⟩ := hx c List.mem_cons_self
    rw [List.cons_append, lines.go, if_neg (by simp [h1, h2]),
      ih (fun d hd => hx d (List.mem_cons_of_mem c hd)) (c :: cur)]
    simp

/-- Text without line ends is the last line. -/
theorem lines_go_noEnd {cs : List Char} (h : ∀ c ∈ cs, c ≠ '\n' ∧ c ≠ '\x00') (cur : List Char)
    (hne : cur ++ cs ≠ []) : lines.go cur cs = [cur.reverse ++ cs] := by
  induction cs generalizing cur with
  | nil =>
    have hcur : cur ≠ [] := by simpa using hne
    simp [lines.go, hcur]
  | cons c rest ih =>
    obtain ⟨h1, h2⟩ := h c List.mem_cons_self
    rw [lines.go, if_neg (by simp [h1, h2]),
      ih (fun d hd => h d (List.mem_cons_of_mem c hd)) (c :: cur) (by simp)]
    simp

/-- The ext prefix `extr #1`, which opens the extended window for one instruction. -/
theorem parse_extr :
    parse "extr #1".toList = .ok ⟨none, .instruction "extr" [⟨.immediate 1 false, "#1"⟩]⟩ := by
  have hline : "extr #1" = Render.line "extr" ["#1"] := by decide
  have hone : "#" ++ toString 1 = "#1" := by decide
  have hop : parseOperands ["#1"] = .ok [⟨.immediate 1 false, "#1"⟩] := by
    have h := Operand.parse_decimalImmediate (by decide : (1 : Nat) < 10)
    rw [hone] at h
    simp [parseOperands, h, Except.map]
  rw [hline]
  exact parse_line (by decide) (by decide) (by decide +kernel)
    (by simpa using (Render.plain_of_isPlain (by decide : Render.isPlain "#1" = true)).standalone) hop

end Statement

/-- The prefix encodes to `D1 80` outside the window, at any address and under any labels. -/
theorem encodeIn_extr (c : Context) (hc : c.extended = false) :
    encodeIn "extr" [⟨.immediate 1 false, "#1"⟩] c = .ok [0xD1, 0x80] := by
  rw [@encodeIn_congr ({} : Context) c hc _ (by simp [Operand.isLabel])]
  exact Except.eq_ok_of_toOption (by decide +kernel)

/-- **A line behind the prefix `extr #1` assembles in the extended window**: the program is
the prefix's two bytes, then what the line's instruction encodes to inside the window, at
every load address. -/
theorem assemble_extLine {t : String} {mn : String} {os : List Operand}
    (hnl : ∀ c ∈ t.toList, c ≠ '\n' ∧ c ≠ '\x00') (hne : t.toList ≠ [])
    (hparse : Statement.parse t.toList = .ok ⟨none, .instruction mn os⟩)
    (hl : ∀ o ∈ os, o.isLabel = false) {b : List UInt8}
    (hb : encodeIn mn os { extended := true } = .ok b) (base : UInt32) :
    (assemble ("extr #1\n" ++ t) base).result = .ok ([0xD1, 0x80] ++ b) := by
  have hprefix : ∀ c ∈ "extr #1".toList, c ≠ '\n' ∧ c ≠ '\x00' := by simp
  have hlines : Statement.lines ("extr #1\n" ++ t).toList = ["extr #1".toList, t.toList] := by
    rw [String.toList_append, show "extr #1\n".toList = "extr #1".toList ++ ['\n'] by simp,
      List.append_assoc, List.singleton_append, Statement.lines,
      Statement.lines_go_append hprefix, Statement.lines_go_noEnd hnl [] (by simpa using hne)]
    rfl
  have hline : ∀ c : Context, c.extended = true → encodeIn mn os c = .ok b := fun c hc => by
    rw [@encodeIn_congr ({ extended := true } : Context) c hc _ hl]
    exact hb
  have hclosed : ({} : SourceWindow).active = false := by decide
  have hstep : (SourceWindow.step {} "extr" [⟨.immediate 1 false, "#1"⟩]).active = true := by decide
  unfold assemble
  simp only [hlines, Program.parseLines, Statement.parse_extr, hparse, Program.items, Except.map,
    List.map, List.nil_append, List.append_nil, List.cons_append]
  -- both passes: the prefix outside the window, the line inside it
  simp only [Program.sizes, encodeIn_extr, hline, hclosed, hstep, Except.map]
  simp [Program.emit, encodeIn_extr, hline, hclosed, hstep, Except.map]

end C166Codec
