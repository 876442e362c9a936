import C166Codec.Proofs.CaseBlind
/-!
# Which label names can be referenced

A line `name:` defines a label when `name` is an ASCII letter or `_` followed by ASCII letters,
digits and `_` (`Statement.isLabelName`), and does not read as a hexadecimal number (`each`,
`dah`): an operand spelled that way reads as a number. The label is kept in lower case.

`Operand.parse` tries a register name and a condition token before a label. A label named
like a register (`r0`, `psw`) or like a condition (`cc_z`) is therefore defined, and a `dw`
argument reads it as that label, but an instruction operand spelled with its name reads as
the register or the condition (or, for an unknown `cc_` name, fails).

Main statement, `Statement.labelName_reads_as_label_iff`: for every label name that is not
hexadecimal, the line `name:` defines the label `name` in lower case, and the operand `name`
reads as that label exactly when it names no register and is no condition token.

* §1 the characters of a label name;
* §2 the line `name:`;
* §3 the operand `name`.
-/

namespace C166Codec

namespace Statement

/-! ## §1. Label names -/

/-- A character that may start a label name in a definition. -/
def isLabelStart (c : Char) : Bool := Text.isAsciiLetter c || c = '_'

/-- A character that may continue a label name in a definition. -/
def isLabelPart (c : Char) : Bool := Text.isAsciiLetter c || Text.isDigit c || c = '_'

/-- The names a label definition accepts: `[A-Za-z_][A-Za-z0-9_]*`. -/
def isLabelName : List Char → Bool
  | c :: cs => isLabelStart c && cs.all isLabelPart
  | [] => false

/-- The characters of a label name are ASCII. -/
theorem toNat_lt_of_isLabelPart {c : Char} (h : isLabelPart c = true) : c.toNat < 128 := by
  simp only [isLabelPart, Text.isAsciiLetter, Text.isDigit, Bool.or_eq_true, Bool.and_eq_true,
    decide_eq_true_eq, Text.char_le_iff, Char.reduceToNat] at h
  rcases h with ((h | h) | h) | rfl <;> first | omega | decide

/-- What a label character is not, checked over the ASCII characters: a blank, a gap, or one
of the characters that end a name, start a comment or a quote, or mark another operand form.
It is a name character of the operand reader. -/
theorem labelPart_table : ∀ n : Fin 128, isLabelPart (Char.ofNat n) = true →
    Text.isWhite (Char.ofNat n) = false ∧ Text.isGap (Char.ofNat n) = false ∧
      Char.ofNat n ∉ [';', '\'', '"', ':', '.', '#', '+', '-', '['] ∧
      Text.isNamePart (Char.ofNat n) = true := by
  decide

/-- The first character of a label name is also no digit. -/
theorem labelStart_table : ∀ n : Fin 128, isLabelStart (Char.ofNat n) = true →
    isLabelPart (Char.ofNat n) = true ∧ Text.isDigit (Char.ofNat n) = false ∧
      Text.isNameStart (Char.ofNat n) = true := by
  decide

theorem labelPart_facts {c : Char} (h : isLabelPart c = true) :
    Text.isWhite c = false ∧ Text.isGap c = false ∧
      c ∉ [';', '\'', '"', ':', '.', '#', '+', '-', '['] ∧ Text.isNamePart c = true := by
  have hlt := toNat_lt_of_isLabelPart h
  have hc : Char.ofNat c.toNat = c := Char.ofNat_toNat c
  rw [← hc] at h ⊢
  exact labelPart_table ⟨c.toNat, hlt⟩ h

theorem labelStart_facts {c : Char} (h : isLabelStart c = true) :
    isLabelPart c = true ∧ Text.isDigit c = false ∧ Text.isNameStart c = true := by
  have hpart : isLabelPart c = true := by
    simp only [isLabelStart, Bool.or_eq_true] at h
    rcases h with h | h
    · simp [isLabelPart, h]
    · simp only [decide_eq_true_eq] at h
      simp [isLabelPart, h]
  have hlt := toNat_lt_of_isLabelPart hpart
  have hc : Char.ofNat c.toNat = c := Char.ofNat_toNat c
  rw [← hc] at h ⊢
  exact labelStart_table ⟨c.toNat, hlt⟩ h

/-- Every character of a label name is a label character. -/
theorem isLabelPart_of_mem {name : List Char} (hn : isLabelName name = true) {c : Char}
    (hc : c ∈ name) : isLabelPart c = true := by
  match name, hn with
  | d :: ds, hn =>
    simp only [isLabelName, Bool.and_eq_true, List.all_eq_true] at hn
    rcases List.mem_cons.mp hc with rfl | hc
    · exact (labelStart_facts hn.1).1
    · exact hn.2 c hc

/-! ## §2. The line `name:` -/

/-- Text without `;` and quotes has no comment to strip. -/
theorem stripComment_go_of_plain {cs : List Char}
    (h : ∀ c ∈ cs, c ≠ ';' ∧ c ≠ '\'' ∧ c ≠ '"') (q : Bool) : stripComment.go q cs = cs := by
  induction cs with
  | nil => rfl
  | cons c rest ih =>
    obtain ⟨hsemi, hq1, hq2⟩ := h c (List.mem_cons_self ..)
    have hrest := ih fun d hd => h d (List.mem_cons_of_mem c hd)
    simp [stripComment.go, hsemi, hq1, hq2, hrest]

/-- The definition of a label name: the name, and nothing after the colon. -/
theorem labelDefinition?_labelLine {name : List Char} (hn : isLabelName name = true) :
    labelDefinition? (name ++ [':']) = some (name, []) := by
  match name, hn with
  | c :: cs, hn =>
    have hall : ∀ d ∈ cs, isLabelPart d = true := by
      simp only [isLabelName, Bool.and_eq_true, List.all_eq_true] at hn
      exact hn.2
    have hstart : isLabelStart c = true := by
      simp only [isLabelName, Bool.and_eq_true] at hn
      exact hn.1
    -- the name runs up to the colon, which no label character is
    have htake : (cs ++ [':']).takeWhile isLabelPart = cs := by
      rw [List.takeWhile_append_of_pos hall]
      simp [isLabelPart, Text.isAsciiLetter, Text.isDigit]
    have hdrop : (cs ++ [':']).dropWhile isLabelPart = [':'] := by
      rw [List.dropWhile_append_of_pos hall]
      simp [isLabelPart, Text.isAsciiLetter, Text.isDigit]
    have htake' : (cs ++ [':']).takeWhile
        (fun d => Text.isAsciiLetter d || Text.isDigit d || d = '_') = cs := htake
    have hdrop' : (cs ++ [':']).dropWhile
        (fun d => Text.isAsciiLetter d || Text.isDigit d || d = '_') = [':'] := hdrop
    have hstart' : (Text.isAsciiLetter c || c = '_') = true := hstart
    simp only [List.cons_append, labelDefinition?]
    rw [if_pos hstart', htake', hdrop']
    rfl

/-- The line `name:` of a label name defines the label in lower case, unless the name reads
as a hexadecimal number. -/
theorem parse_labelLine {name : List Char} (hn : isLabelName name = true) :
    parse (name ++ [':']) =
      if Lexeme.isHex name then .error (.syntaxFault (.hexLabel (String.ofList name)))
      else .ok ⟨some (Text.lower (String.ofList name)), .none⟩ := by
  have hplain : ∀ c ∈ name ++ [':'], c ≠ ';' ∧ c ≠ '\'' ∧ c ≠ '"' := by
    intro c hc
    rcases List.mem_append.mp hc with hc | hc
    · have := (labelPart_facts (isLabelPart_of_mem hn hc)).2.2.1
      simp only [List.mem_cons, List.not_mem_nil, or_false, not_or] at this
      exact ⟨this.1, this.2.1, this.2.2.1⟩
    · simp only [List.mem_singleton] at hc
      subst hc
      decide
  have hne : name ≠ [] := by
    rintro rfl
    cases hn
  have hhead : ∀ c ∈ (name ++ [':']).head?, Text.isWhite c = false := by
    intro c hc
    rw [List.head?_append_of_ne_nil _ hne] at hc
    exact (labelPart_facts (isLabelPart_of_mem hn (List.mem_of_mem_head? hc))).1
  have hlast : ∀ c ∈ (name ++ [':']).getLast?, Text.isWhite c = false := by
    simp [Text.isWhite]
  have hline : (if (name ++ [':']).getLast? = some '\r' then (name ++ [':']).dropLast
      else name ++ [':']) = name ++ [':'] := by
    simp
  have htrim : Text.trimChars (stripComment (name ++ [':'])) = name ++ [':'] := by
    rw [stripComment, stripComment_go_of_plain hplain, Text.trimChars_eq_self hhead hlast]
  simp only [parse, hline, htrim, labelDefinition?_labelLine hn]
  split <;> rfl

/-! ## §3. The operand `name` -/

/-- Text that is no register, no condition token, no immediate, bit address, displacement or
number, and is a name, is a label. -/
theorem parsePlain_label {t : String} {cs : List Char} (hl : Register.lookup? t = none)
    (hc : Operand.isConditionToken cs = false) (hi : Operand.immediatePattern? cs = none)
    (hb : Operand.bitAddrPattern? cs = none) (hr : Operand.relativePattern? cs = none)
    (hn : Lexeme.isNumber cs = false) (hname : Lexeme.isName cs = true) :
    Operand.parsePlain t cs = .ok (.label (Text.lower t)) := by
  simp [Operand.parsePlain, hl, hc, hi, hb, hr, hn, hname]

/-- The operand `name` of a label name that is not hexadecimal, when it is no register and no
condition token, is the label. -/
theorem parsePlain_labelName {name : List Char} (hn : isLabelName name = true)
    (hx : Lexeme.isHex name = false) (hl : Register.lookup? (String.ofList name) = none)
    (hc : Operand.isConditionToken name = false) :
    Operand.parsePlain (String.ofList name) name = .ok (.label (Text.lower (String.ofList name))) := by
  obtain ⟨c, cs, rfl⟩ : ∃ c cs, name = c :: cs := List.exists_cons_of_ne_nil (by rintro rfl; cases hn)
  have hstart : isLabelStart c = true := by
    simp only [isLabelName, Bool.and_eq_true] at hn
    exact hn.1
  obtain ⟨hpart, hdigit, hnameStart⟩ := labelStart_facts hstart
  have hnot := (labelPart_facts hpart).2.2.1
  simp only [List.mem_cons, List.not_mem_nil, or_false, not_or] at hnot
  have hdot : '.' ∉ c :: cs := fun hd => by
    have := (labelPart_facts (isLabelPart_of_mem hn hd)).2.2.1
    simp at this
  -- not a number: not one decimal digit, and not hexadecimal
  have hnum : Lexeme.isNumber (c :: cs) = false := by
    have hdec : Lexeme.isDecimal (c :: cs) = false := by
      cases cs with
      | nil => simpa [Lexeme.isDecimal] using hdigit
      | cons _ _ => rfl
    simp [Lexeme.isNumber, hdec, hx]
  -- but a name of the operand reader
  have hname : Lexeme.isName (c :: cs) = true := by
    simp only [Lexeme.isName, hnameStart, Bool.true_and, List.all_eq_true]
    intro d hd
    exact (labelPart_facts (isLabelPart_of_mem hn (List.mem_cons_of_mem c hd))).2.2.2
  exact parsePlain_label hl hc (Operand.immediatePattern?_of_head hnot.2.2.2.2.2.1)
    (Operand.bitAddrPattern?_of_not_mem hdot)
    (Operand.relativePattern?_of_head ⟨hnot.2.2.2.2.2.2.1, hnot.2.2.2.2.2.2.2.1⟩) hnum hname

/-- A label name is read without trimming, through the plain forms. -/
theorem parse_labelName {name : List Char} (hn : isLabelName name = true) :
    Operand.parse (String.ofList name) =
      (Operand.parsePlain (String.ofList name) name).map (⟨·, String.ofList name⟩) := by
  obtain ⟨c, cs, rfl⟩ : ∃ c cs, name = c :: cs := List.exists_cons_of_ne_nil (by rintro rfl; cases hn)
  have hpart : ∀ d ∈ c :: cs, isLabelPart d = true := fun d hd => isLabelPart_of_mem hn hd
  have ht : Text.trim (String.ofList (c :: cs)) = String.ofList (c :: cs) := by
    apply Text.trim_eq_self
    · intro d hd
      simp only [String.toList_ofList] at hd
      exact (labelPart_facts (hpart d (List.mem_of_mem_head? hd))).1
    · intro d hd
      simp only [String.toList_ofList] at hd
      exact (labelPart_facts (hpart d (List.mem_of_mem_getLast? hd))).1
  have hbracket : c ≠ '[' := by
    have := (labelPart_facts (hpart c (List.mem_cons_self ..))).2.2.1
    simp only [List.mem_cons, List.not_mem_nil, or_false, not_or] at this
    exact this.2.2.2.2.2.2.2.2
  rw [Operand.parse_of_trim ht String.toList_ofList, if_neg hbracket]

/-- Every label a line can define is defined in lower case by the line `name:`, and the
operand `name` reads as that label exactly when the name is no register's and no condition
token. -/
theorem labelName_reads_as_label_iff {name : List Char} (hn : isLabelName name = true)
    (hx : Lexeme.isHex name = false) :
    parse (name ++ [':']) = .ok ⟨some (Text.lower (String.ofList name)), .none⟩ ∧
      (Operand.parse (String.ofList name) =
          .ok ⟨.label (Text.lower (String.ofList name)), String.ofList name⟩ ↔
        Register.lookup? (String.ofList name) = none ∧ Operand.isConditionToken name = false) := by
  refine ⟨by rw [parse_labelLine hn, if_neg (by simp [hx])], ?_⟩
  rw [parse_labelName hn]
  constructor
  · intro h
    -- a register or a condition token reads as something other than a label
    cases hl : Register.lookup? (String.ofList name) with
    | some r =>
      rw [Operand.parsePlain_register hl] at h
      simp only [Except.map] at h
      cases h
    | none =>
      refine ⟨rfl, ?_⟩
      cases hc : Operand.isConditionToken name with
      | false => rfl
      | true =>
        simp only [Operand.parsePlain, hl, hc, if_true] at h
        split at h <;> cases h
  · rintro ⟨hl, hc⟩
    rw [parsePlain_labelName hn hx hl hc]
    rfl

/-- `r0` is a label name that is not hexadecimal, yet the operand `r0` is the register. -/
example : isLabelName "r0".toList = true ∧ Lexeme.isHex "r0".toList = false ∧
    (Operand.parse "r0").toOption = some ⟨.register (.word 0), "r0"⟩ := by
  decide +kernel

end Statement

end C166Codec
