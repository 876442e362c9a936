import C166Codec.Proofs.OperandMeaning
/-!
# The text of a decoded instruction reassembles to the same instruction

The text that decoding writes for an instruction (`Instruction.text`) is assembly source: in
the window it was decoded in, it assembles, and the bytes decode to an instruction with the
same mnemonic whose operands mean what the first one's meant (`Instruction.meaning`). The
encodings may differ: a register short address may come back as the same word under another
opcode, or a short literal may land in a wider slot.

The argument:

* decoding leaves each slot's fields within what its text needs, and an opcode that keeps a
  field in its high nibble keeps it in a condition or bit slot (`Instruction.decoded_of_decode`,
  `Instruction.embedded_of_decode`), the opcode table checked once for all opcodes
  (`Descriptor.settled_table`);
* the operand texts read back as operands (`Render.parseOperands_operands`) that the decoded
  opcode itself accepts (`Render.accepts_operands`), so selection finds an opcode, maybe an
  earlier one of the same mnemonic, and encodes (`Select.encode_ok_of_accepts`);
* an earlier opcode that accepts the operands takes each one into a slot of the same class
  (`Descriptor.rebinds_table`), where it means what it meant (`Render.slotMeaning_rebind`);
* decoding the bytes gives back what was bound, as far as the operand texts read it.

Sections: §1 decoded fields, §2 the operands of the text, §3 the opcodes a mnemonic tries, §4
what the bytes mean, §5 the main statement.
-/

namespace C166Codec

/-! ## §1. Decoded fields -/

theorem Fields.Within.uint_le {fs : Fields} {f : Field} {max : UInt32} (h : fs.Within f max) :
    fs.uint f ≤ max := by
  obtain ⟨v, hv, -, hle⟩ := h
  rw [Layout.uint_of_get? hv]
  exact hle

namespace Layout

/-- Whether need `n` bounds field `f` by `b` in every map that meets it. -/
def Need.bounds : Need → Field → UInt32 → Bool
  | .atMost g m, f, b => g == f && decide (m ≤ b)
  | .embedded g, f, b => g == f && decide (15 ≤ b)
  | .range, f, b => f == .irange0 && decide (4 ≤ b)
  | _, _, _ => false

theorem Need.uint_le_of_bounds {op : UInt8} {fs : Fields} {n : Need} {f : Field} {b : UInt32}
    (hn : n.Holds op fs) (hb : n.bounds f b = true) : fs.uint f ≤ b := by
  cases n <;> simp only [bounds, Bool.and_eq_true, beq_iff_eq, decide_eq_true_eq,
    Bool.false_eq_true] at hb
  case atMost g m =>
    obtain ⟨rfl, hle⟩ := hb
    exact UInt32.le_trans (Fields.Within.uint_le hn) hle
  case embedded g =>
    obtain ⟨rfl, hle⟩ := hb
    exact UInt32.le_trans (Fields.Within.uint_le hn.1) hle
  case range =>
    obtain ⟨rfl, hle⟩ := hb
    obtain ⟨v, hv, -, h4⟩ := hn
    rw [uint_of_get? hv]
    exact UInt32.le_trans h4 hle

/-- Whether the needs of layout `l` give what the text of slot `s` reads (`Slot.Decoded`):
every bound of the slot's fields, and the displacement, ext range, page or segment, or mode
that the slot's kind reads. -/
def settles (l : Layout) (s : Slot) : Bool :=
  s.kind.bound.all (fun b => l.needs.any (·.bounds s.field b)) &&
    s.aux.all (fun a => s.kind.auxBound.all fun b => l.needs.any (·.bounds a b)) &&
    match s.kind with
    | .pageSeg => l == .extImm
    | .data3OrInd => l.needs.contains .mode
    | .rel => l.needs.contains .displacement && s.field == .relative0
    | .irange => l.needs.contains .range && s.field == .irange0
    | _ => true

end Layout

/-- Whether slot `s` writes field `f` as a condition code or a bit number: the two ways an
opcode's high nibble may be an operand. -/
def Slot.embeds (s : Slot) (f : Field) : Bool :=
  s.kind == .cond && s.field == f || s.kind == .bitAddr && s.aux == some f

namespace Descriptor

/-- Whether decoding an opcode leaves every slot's fields as its text reads them, and keeps a
field in the high nibble only as a slot's condition code or bit number. -/
def settled (d : Descriptor) : Bool :=
  d.shape.slots.all d.layout.settles &&
    d.layout.embedded.all fun f => d.shape.slots.any (·.embeds f)

set_option maxRecDepth 100000 in
/-- Every opcode of the table is settled by its layout. -/
theorem settled_table : ∀ d ∈ all, d.settled = true := by
  decide +kernel

end Descriptor

/-- Fields that meet a layout's needs are decoded fields of each slot the layout settles, given
the mnemonic of the ext layout and whether it takes a page. -/
theorem Slot.decoded_of_settles {l : Layout} {s : Slot} {op : UInt8} {fs : Fields} {mn : String}
    (hneeds : ∀ n ∈ l.needs, n.Holds op fs) (hs : l.settles s = true)
    (hext : l = .extImm → fs.has .page0 = isPageMnemonic mn ∧ fs.text .mnemonic = mn) :
    s.Decoded mn fs := by
  have hle : ∀ f b, l.needs.any (·.bounds f b) = true → fs.uint f ≤ b := fun f b h => by
    obtain ⟨n, hn, hnb⟩ := List.any_eq_true.mp h
    exact Layout.Need.uint_le_of_bounds (hneeds n hn) hnb
  simp only [Layout.settles, Bool.and_eq_true, Option.all_eq_true] at hs
  obtain ⟨⟨hb, ha⟩, hk⟩ := hs
  refine ⟨fun b hb' => hle _ _ (hb b hb'), fun a ha' b hb' => hle _ _ (ha a ha' b hb'), ?_⟩
  obtain ⟨kind, field, aux⟩ := s
  cases kind <;> simp only at hk ⊢
  case rel =>
    simp only [Bool.and_eq_true, List.contains_iff_mem, beq_iff_eq] at hk
    obtain ⟨v, hv, h1, h2⟩ := hneeds _ hk.1
    rw [hk.2]
    simpa [Fields.int, hv] using And.intro h1 h2
  case pageSeg =>
    have hl : l = .extImm := by simpa using hk
    obtain ⟨hpage, hmn⟩ := hext hl
    have hps := hneeds .pageOrSegment (by rw [hl]; simp [Layout.needs, Layout.embedded])
    simp only [Layout.Need.Holds, hmn] at hps
    refine ⟨hpage, ?_⟩
    split_ifs at hps ⊢
    · exact hps.uint_le
    · exact hps.uint_le
  case irange =>
    simp only [Bool.and_eq_true, List.contains_iff_mem, beq_iff_eq] at hk
    obtain ⟨v, hv, h1, -⟩ := hneeds _ hk.1
    rw [hk.2, Layout.uint_of_get? hv]
    exact h1
  case data3OrInd =>
    simp only [List.contains_iff_mem] at hk
    rcases hneeds _ hk with ⟨hm, h7⟩ | ⟨hm, h3⟩
    · exact .inl ⟨hm, h7.uint_le⟩
    · exact .inr ⟨hm, h3.uint_le⟩

namespace Instruction

variable {code : List UInt8} {pc : UInt32} {i : Instruction}

/-- The mnemonic of a decoded instruction is one of its opcode's, and the one its sub-opcode
names when its layout has a sub-opcode table. -/
theorem mnemonic_of_decode (h : decode code pc = .ok i) :
    (i.descriptor.layout.subTable.isSome → i.mnemonic = i.fields.text .mnemonic) ∧
      i.mnemonic ∈ i.descriptor.mnemonics := by
  obtain ⟨op, rest, d, fs, rfl, -, hfs, rfl⟩ := decode_eq_ok h
  cases ht : d.layout.subTable with
  | none =>
    have hnone := Layout.decode_mnemonic ht hfs
    simp [mnemonic, Fields.has, hnone, Descriptor.mnemonics, ht]
  | some t =>
    -- the sub-opcode need names an entry of the table, so the mnemonic is set
    have hsub := Layout.needs_of_decode hfs (.sub t) (by
      cases hl : d.layout <;> simp [hl, Layout.subTable] at ht <;> subst ht <;>
        simp [Layout.needs, Layout.embedded])
    obtain ⟨sel, hsel⟩ := Option.isSome_iff_exists.mp hsub
    have hentry := SubTable.entry_of_select? hsel
    have hset : fs.has .mnemonic = true := Fields.has_of_text_ne (SubTable.entry_ne_empty hentry)
    refine ⟨fun _ => by simp [mnemonic, hset], ?_⟩
    simp only [mnemonic, hset, if_true, Descriptor.mnemonics, ht]
    exact List.mem_filterMap.mpr ⟨sel, List.mem_finRange sel, hentry⟩

/-- **Decoding leaves every slot's fields as its text reads them.** -/
theorem decoded_of_decode (h : decode code pc = .ok i) :
    ∀ s ∈ i.descriptor.shape.slots, s.Decoded i.mnemonic i.fields := by
  have hmn := (mnemonic_of_decode h).1
  obtain ⟨op, rest, d, fs, rfl, hd, hfs, rfl⟩ := decode_eq_ok h
  intro s hs
  have hset := Descriptor.settled_table d (Descriptor.mem_all_of_lookup? hd)
  simp only [Descriptor.settled, Bool.and_eq_true, List.all_eq_true] at hset
  refine Slot.decoded_of_settles (Layout.needs_of_decode hfs) (hset.1 s hs) fun hl => ?_
  -- the ext layout: its mnemonic is the sub-opcode's, which says whether a page is set
  have hmn' := hmn (by simp [hl, Layout.subTable])
  exact ⟨by rw [hmn']; exact Layout.has_page0_of_decode (hl ▸ hfs), hmn'.symm⟩

/-- **An opcode that keeps a field in its high nibble keeps it in a condition or bit slot**,
and decoding sets the field to that nibble. -/
theorem embedded_of_decode (h : decode code pc = .ok i) :
    ∀ f, i.descriptor.layout.embedded = some f →
      (∃ s ∈ i.descriptor.shape.slots, s.embeds f = true) ∧
        i.fields.uint f = (i.descriptor.opcode >>> 4).toUInt32 := by
  obtain ⟨op, rest, d, fs, rfl, hd, hfs, rfl⟩ := decode_eq_ok h
  intro f hf
  have hset := Descriptor.settled_table d (Descriptor.mem_all_of_lookup? hd)
  simp only [Descriptor.settled, Bool.and_eq_true, Option.all_eq_true, hf] at hset
  have hemb := Layout.needs_of_decode hfs (.embedded f) (by simp [Layout.needs, hf])
  refine ⟨List.any_eq_true.mp (hset.2 f rfl), ?_⟩
  show fs.uint f = (d.opcode >>> 4).toUInt32
  rw [hemb.2, Descriptor.opcode_of_lookup? hd]
  rfl

end Instruction

/-! ## §2. The operands of the text -/

namespace Select

/-- An operand whose tag a slot kind lets in has a form and a width that kind accepts. -/
theorem fits_of_admits {k : SlotKind} {o : Operand} (h : k.admits o.form.tag = true) :
    kindFits k o = true ∧ widthFits k o = true := by
  obtain ⟨f, raw⟩ := o
  cases f
  case register r =>
    cases r <;> cases k <;>
      simp_all [kindFits, widthFits, Register.isGeneral, OperandForm.tag, SlotKind.admits]
  case immediate v w =>
    cases w <;> cases k <;> simp_all [kindFits, widthFits, OperandForm.tag, SlotKind.admits]
  all_goals cases k <;> simp_all [kindFits, widthFits, OperandForm.tag, SlotKind.admits]

end Select

/-- A displacement that fits a signed byte, read as a whole number. -/
theorem Int32.toInt_bounds {x : Int32} (h : -128 ≤ x ∧ x ≤ 127) :
    -128 ≤ x.toInt ∧ x.toInt ≤ 127 :=
  ⟨Int32.le_iff_toInt_le.mp h.1, Int32.le_iff_toInt_le.mp h.2⟩

namespace Render

/-- Decoded fields read back as they are written. -/
theorem parseFits_of_decoded {s : Slot} {mn : String} {fs : Fields} (h : s.Decoded mn fs) :
    ParseFits s fs := by
  obtain ⟨hb, ha, hx⟩ := h
  obtain ⟨kind, field, aux⟩ := s
  cases kind <;> simp only [ParseFits] <;> simp only at hb ha hx
  case bitAddr =>
    cases aux with
    | none => simp
    | some a =>
      have h15 := UInt32.le_iff_toNat_le.mp (ha a rfl 15 rfl)
      simp at h15 ⊢
      omega
  case rel => exact Int32.toInt_bounds hx
  case irange =>
    have h4 := UInt32.le_iff_toNat_le.mp (hb 4 rfl)
    simp at h4
    omega

/-- **The operand texts of decoded fields read back as their operands.** -/
theorem parseOperands_operands {mn : String} {fs : Fields} (extended : Bool) :
    ∀ slots : List Slot, (∀ s ∈ slots, s.Decoded mn fs) →
      Statement.parseOperands (slots.map fun s => operand s fs extended) =
        .ok (slots.map fun s => slotOperand s fs extended)
  | [], _ => rfl
  | s :: rest, h => by
    have hs := parse_operand s fs extended (parseFits_of_decoded (h s List.mem_cons_self))
    have hrest := parseOperands_operands extended rest fun t ht => h t (List.mem_cons_of_mem _ ht)
    simp only [List.map_cons, Statement.parseOperands, hs, hrest]
    rfl

/-- The written name of a short register address has that short address. -/
theorem regShort?_regForm (x : UInt8) (w : Width) (extended : Bool) (raw : String) :
    Select.regShort? ⟨regForm x w extended, raw⟩ extended = some x := by
  unfold regForm
  by_cases hx : x ≥ 0xF0
  · -- a bank register is F0h and its number
    have hn := Register.bankShort_toNat (Fin.ofNat 16 x.toNat)
    have hx' : ((240 : UInt8) ||| UInt8.ofNat (x.toNat % 16)) = x := by
      rw [ge_iff_le, UInt8.le_iff_toNat_le] at hx
      have := x.toNat_lt
      apply UInt8.toNat_inj.mp
      simp at hn hx ⊢
      omega
    by_cases hw : w = .byte <;>
      simp [hx, hw, Select.regShort?, Register.isGeneral, Register.num, hx']
  · obtain ⟨a, ha, hshort⟩ := ShortAddress.regShort?_regAddress? (UInt8.not_le.mp hx) extended
    simp only [hx, if_false, ha, Option.getD_some]
    cases hat : SpecialRegister.atAddress? a with
    | some r =>
      simp [Select.regShort?, Register.isGeneral, Register.address,
        (SpecialRegister.atAddress?_spec hat).2, hshort]
    | none =>
      have hle : a.toNat ≤ 0xFFFF := by have := a.toNat_lt; omega
      simp [Select.regShort?, hle, hshort]

/-- The operand written for a slot has a form and width the slot's kind accepts. -/
theorem fits_slotOperand (s : Slot) (fs : Fields) (extended : Bool) :
    Select.kindFits s.kind (slotOperand s fs extended) = true ∧
      Select.widthFits s.kind (slotOperand s fs extended) = true := by
  obtain ⟨kind, field, aux⟩ := s
  cases kind <;> simp only [slotOperand, operandForm]
  case regW =>
    -- a word register, a special function register or a word
    apply Select.fits_of_admits
    have ht := tag_regForm (fs.uint field).toNat.toUInt8 .word extended
    simp at ht
    rcases ht with h | h | h <;> simp [h, SlotKind.admits]
  case regB =>
    apply Select.fits_of_admits
    have ht := tag_regForm (fs.uint field).toNat.toUInt8 .byte extended
    simp at ht
    rcases ht with h | h | h <;> simp [h, SlotKind.admits]
  case bitoff =>
    rcases bitName_cases (fs.uint field).toUInt8 extended with ⟨n, -, hw⟩ |
        ⟨r, -, -, -, hw⟩ | ⟨a, -, -, -, hw⟩ <;>
      simp [hw, bitWordForm, Select.kindFits, Select.widthFits]
  case data3OrInd =>
    simp only [data3OrIndForm]
    split_ifs <;> simp [Select.kindFits, Select.widthFits]
  case pageSeg => split_ifs <;> simp [Select.kindFits, Select.widthFits]
  all_goals simp [Select.kindFits, Select.widthFits]

/-- **Decoded fields make an operand text whose numbers fit its slot**, and whose short
addresses exist, in the window it was written for. -/
theorem rangeFits_slotOperand {s : Slot} {mn : String} {fs : Fields} (hdec : s.Decoded mn fs)
    (c : Context) (len : Nat) :
    Select.rangeFits c mn len s.kind (slotOperand s fs c.extended) = true := by
  obtain ⟨hb, ha, hx⟩ := hdec
  obtain ⟨kind, field, aux⟩ := s
  have hv := (fs.uint field).toNat_lt
  cases kind <;> simp only at hb ha hx <;>
    simp only [slotOperand, operandForm, Select.rangeFits]
  case regW | regB => simp [regShort?_regForm]
  case bitoff => simp [(bitShort?_bitWord _ _ 0 _).2]
  case bitAddr => simp [(bitShort?_bitWord _ _ _ _).1]
  case mem =>
    have h := UInt32.le_iff_toNat_le.mp (hb 65535 rfl)
    simp at h
    simp [Select.memAddress?, h]
  case data3OrInd =>
    simp only [data3OrIndForm]
    split_ifs with hreg hinc
    · rfl
    · rfl
    · -- neither register mode, so the data mode with its three bits
      have h7 : fs.uint .data0 ≤ 7 := by
        rcases hx with ⟨-, h7⟩ | ⟨hm | hm, -⟩
        · exact h7
        · exact absurd hm hreg
        · exact absurd hm hinc
      have h7' := UInt32.le_iff_toNat_le.mp h7
      simp at h7'
      simp [Select.within, Operand.value]
      omega
  case pageSeg =>
    obtain ⟨hp, hle⟩ := hx
    have hpage := (fs.uint .page0).toNat_lt
    have hseg := (fs.uint .segment0).toNat_lt
    cases hq : isPageMnemonic mn <;> simp only [hq, if_true, if_false, Bool.false_eq_true] at hp hle ⊢
    · have h := UInt32.le_iff_toNat_le.mp hle
      simp at h
      simp [hp, Select.within, Operand.value]
      omega
    · have h := UInt32.le_iff_toNat_le.mp hle
      simp at h
      simp [hp, Select.within, Operand.value]
      omega
  case rel =>
    simp only [Select.displacement?, Select.within, Bool.and_eq_true, decide_eq_true_eq]
    exact Int32.toInt_bounds hx
  case indOff =>
    cases aux with
    | none => simp [Select.within, Operand.value]
    | some a =>
      have h := UInt32.le_iff_toNat_le.mp (ha a rfl 65535 rfl)
      simp at h
      simp [Select.within, Operand.value]
      omega
  case irange =>
    have h := UInt32.le_iff_toNat_le.mp (hb 4 rfl)
    have h1 := UInt32.le_iff_toNat_le.mp hx
    simp at h h1
    simp [Select.within, Operand.value]
    omega
  case data4 =>
    have h := UInt32.le_iff_toNat_le.mp (hb 15 rfl)
    simp at h
    simp [Select.within, Operand.value, Operand.wide]
    omega
  all_goals
    have h := UInt32.le_iff_toNat_le.mp (hb _ rfl)
    simp at h
    simp [Select.within, Operand.value]
    omega

/-- Decoded fields make an indirect operand of `#data3/[Rw]` with one of `r0`..`r3`. -/
theorem indexFits_slotOperand {s : Slot} {mn : String} {fs : Fields} (hdec : s.Decoded mn fs)
    (extended : Bool) : Select.indexFits s.kind (slotOperand s fs extended) = true := by
  obtain ⟨-, -, hx⟩ := hdec
  obtain ⟨kind, field, aux⟩ := s
  cases kind <;> simp only at hx <;> simp only [slotOperand, operandForm, Select.indexFits]
  simp only [data3OrIndForm]
  have h3 : fs.text .mode0 = Mode.reg ∨ fs.text .mode0 = Mode.regInc → fs.uint .register1 ≤ 3 := by
    intro hm
    rcases hx with ⟨hd, -⟩ | ⟨-, h3⟩
    · rcases hm with hm | hm <;> rw [hm] at hd <;> exact absurd hd (by decide)
    · exact h3
  split_ifs with hreg hinc
  · have h := UInt32.le_iff_toNat_le.mp (h3 (.inl hreg))
    simp at h
    simp (disch := omega) [Operand.regNum, Operand.register?, Register.num, Nat.mod_eq_of_lt]
    omega
  · have h := UInt32.le_iff_toNat_le.mp (h3 (.inr hinc))
    simp at h
    simp (disch := omega) [Operand.regNum, Operand.register?, Register.num, Nat.mod_eq_of_lt]
    omega
  · rfl

end Render

/-- A slot that writes a field as a condition code or bit number writes that field. -/
theorem Slot.mem_writes_of_embeds {s : Slot} {f : Field} (h : s.embeds f = true) :
    f ∈ s.writes := by
  obtain ⟨kind, field, aux⟩ := s
  simp only [Slot.embeds, Bool.or_eq_true, Bool.and_eq_true, beq_iff_eq] at h
  rcases h with ⟨rfl, rfl⟩ | ⟨rfl, rfl⟩ <;> simp [Slot.writes]

namespace Render

/-- Binding the operand written for a condition or bit slot gives back the condition code or
bit number that decoding set. -/
theorem uint_bindSlot_of_embeds {s : Slot} {mn : String} {fs : Fields} {f : Field}
    (he : s.embeds f = true) (hdec : s.Decoded mn fs) (c : Context) (len : Nat) :
    (Select.bindSlot c mn len .empty s (slotOperand s fs c.extended)).uint f = fs.uint f := by
  obtain ⟨hb, ha, -⟩ := hdec
  obtain ⟨kind, field, aux⟩ := s
  simp only [Slot.embeds, Bool.or_eq_true, Bool.and_eq_true, beq_iff_eq] at he
  rcases he with ⟨rfl, rfl⟩ | ⟨rfl, rfl⟩
  · have h := UInt32.le_iff_toNat_le.mp (hb 15 rfl)
    simp at h
    apply UInt32.toNat_inj.mp
    simp (disch := omega) [slotOperand, operandForm, Select.bindSlot, Operand.condition,
      Condition.ofNat, Nat.mod_eq_of_lt]
  · have h := UInt32.le_iff_toNat_le.mp (ha f rfl 15 rfl)
    simp at h
    apply UInt32.toNat_inj.mp
    simp (disch := omega) [slotOperand, operandForm, Select.bindSlot, Operand.bit,
      Nat.mod_eq_of_lt]

/-- **An opcode accepts the operands of its own text** when its fields are decoded ones and its
high nibble is a condition code or bit number of its fields. -/
theorem accepts_operands {d : Descriptor} {fs : Fields} {mn : String} (c : Context)
    (hdec : ∀ s ∈ d.shape.slots, s.Decoded mn fs)
    (hemb : ∀ f, d.layout.embedded = some f →
      (∃ s ∈ d.shape.slots, s.embeds f = true) ∧ fs.uint f = (d.opcode >>> 4).toUInt32) :
    Select.accepts d (d.shape.slots.map fun s => slotOperand s fs c.extended) c mn = true := by
  have hzip : d.shape.slots.zip (d.shape.slots.map fun s => slotOperand s fs c.extended) =
      d.shape.slots.map fun s => (s, slotOperand s fs c.extended) := by
    simpa using @List.zip_map' _ _ _ id (fun s => slotOperand s fs c.extended) d.shape.slots
  simp only [Select.accepts, List.all_eq_true]
  intro r _
  cases r
  case count => simp [Select.Rule.check, Shape.arity]
  case kind => simp [Select.Rule.check, hzip, (fits_slotOperand _ fs c.extended).1]
  case width => simp [Select.Rule.check, hzip, (fits_slotOperand _ fs c.extended).2]
  case range =>
    simp only [Select.Rule.check, hzip, List.all_map, List.all_eq_true]
    exact fun s hs => rangeFits_slotOperand (hdec s hs) c d.length
  case index =>
    simp only [Select.Rule.check, hzip, List.all_map, List.all_eq_true]
    exact fun s hs => indexFits_slotOperand (hdec s hs) c.extended
  case embedded =>
    simp only [Select.Rule.check]
    cases hf : d.layout.embedded with
    | none => rfl
    | some f =>
      -- the embedded field is bound by its condition or bit slot alone
      obtain ⟨⟨s, hs, hse⟩, hval⟩ := hemb f hf
      obtain ⟨j, hj, rfl⟩ := List.getElem_of_mem hs
      have hu := uint_bindSlot_of_embeds hse (hdec _ hs) c d.length
      have hbind : (Select.bind d (d.shape.slots.map fun s => slotOperand s fs c.extended) c
          mn).uint f = fs.uint f := by
        unfold Fields.uint at hu ⊢
        rw [Select.bind_get?_slot hj (by simpa using hj) (Slot.mem_writes_of_embeds hse),
          List.getElem_map]
        exact hu
      simp [hbind, hval]

end Render

/-! ## §3. The opcodes a mnemonic tries -/

namespace Descriptor

/-- Whether each operand written for a slot of `d` is refused by the slot of `d'` at its place
or lands in a slot of the same class: what it takes for an opcode `d'` that is tried before
`d` to read the operands of `d` alike. -/
def rebinds (d d' : Descriptor) : Bool :=
  d'.shape.arity != d.shape.arity ||
    (d.shape.slots.zip d'.shape.slots).all fun p =>
      p.1.kind.tags.all fun t => !p.2.kind.admits t || p.1.kind.sameClass p.2.kind

/-- The mnemonics of the opcode table, each once. -/
def allMnemonics : List String := (all.flatMap mnemonics).dedup

set_option maxRecDepth 100000 in
/-- **An opcode that a mnemonic tries before another rebinds the other's operands.** -/
theorem rebinds_table :
    ∀ m ∈ allMnemonics, (byMnemonic m).Pairwise fun d' d => d.rebinds d' = true := by
  decide +kernel

/-- An operand written for slot `j` of `d` that the slot of an opcode `d'` rebinding it lets in
lands in a slot of the same class. -/
theorem sameClass_of_rebinds {d d' : Descriptor} (h : d.rebinds d' = true)
    (hlen : d'.shape.slots.length = d.shape.slots.length) {j : Nat}
    (hj : j < d.shape.slots.length) (hj' : j < d'.shape.slots.length) {t : FormTag}
    (ht : t ∈ d.shape.slots[j].kind.tags) (hadm : d'.shape.slots[j].kind.admits t = true) :
    d.shape.slots[j].kind.sameClass d'.shape.slots[j].kind = true := by
  simp only [rebinds, Shape.arity, hlen, bne_self_eq_false, Bool.false_or, List.all_eq_true,
    Bool.or_eq_true, Bool.not_eq_eq_eq_not, Bool.not_true] at h
  have hmem : (d.shape.slots[j], d'.shape.slots[j]) ∈ d.shape.slots.zip d'.shape.slots :=
    List.mem_iff_getElem.mpr ⟨j, by simp [hj, hj'], by simp⟩
  simpa [hadm] using h _ hmem t ht

/-- The opcode that a search of a mnemonic's opcodes finds, when opcode `d` of the mnemonic
passes the search, is `d` or one tried before it, which rebinds the operands of `d`. -/
theorem rebinds_of_find? {m : String} {d d' : Descriptor} (hd : d ∈ byMnemonic m)
    {p : Descriptor → Bool} (hp : p d = true) (hf : (byMnemonic m).find? p = some d') :
    d' = d ∨ d.rebinds d' = true := by
  obtain ⟨hall, hm⟩ := Select.mem_byMnemonic hd
  have hpw := rebinds_table m (List.mem_dedup.mpr (List.mem_flatMap.mpr ⟨d, hall, hm⟩))
  obtain ⟨-, as, bs, hsplit, hbefore⟩ := List.find?_eq_some_iff_append.mp hf
  rw [hsplit] at hd hpw
  rcases List.mem_append.mp hd with ha | hb
  · -- no opcode before the one found passes
    exact absurd hp (by simpa using hbefore d ha)
  · rcases List.mem_cons.mp hb with rfl | hb
    · exact .inl rfl
    · exact .inr ((List.pairwise_cons.mp (List.pairwise_append.mp hpw).2.1).1 d hb)

end Descriptor

/-! ## §4. What the bytes mean -/

namespace Shape

/-- No slot names the mode tag, and an indexed operand and a bit address have a second
field. -/
theorem slot_text_facts (sh : Shape) : ∀ s ∈ sh.slots,
    (s.field ≠ .mode0 ∧ ∀ a ∈ s.aux, a ≠ .mode0) ∧
      (s.kind = .indOff ∨ s.kind = .bitAddr → s.aux.isSome) := by
  cases sh <;> decide

end Shape

/-- A layout packs every field its encoder asks to be set. -/
theorem Layout.fixedFields_subset_packs (l : Layout) (fs : Fields) :
    ∀ f ∈ l.fixedFields, f ∈ l.packs fs := by
  cases l <;> simp [Layout.fixedFields, Layout.needs, Layout.packs, Layout.embedded,
    Layout.Need.field?]

namespace Render

/-- An operand's text reads only fields that binding to its slot may set. -/
theorem reads_subset_writes (s : Slot) (fs : Fields) : ∀ f ∈ reads s fs, f ∈ s.writes := by
  intro f hf
  unfold reads at hf
  cases hk : s.kind <;> simp only [hk] at hf
  case data3OrInd =>
    split at hf <;> simp only [List.mem_cons, List.not_mem_nil, or_false] at hf <;>
      rcases hf with rfl | rfl <;> simp [Slot.writes, hk]
  case pageSeg =>
    split at hf <;> simp only [List.mem_singleton] at hf <;> subst hf <;> simp [Slot.writes, hk]
  all_goals simp_all [Slot.writes]

/-- No operand written for a slot is a label. -/
theorem isLabel_slotOperand (s : Slot) (fs : Fields) (extended : Bool) :
    (slotOperand s fs extended).isLabel = false := by
  have ht := tag_slotOperand s fs extended
  have hnot : FormTag.label ∉ s.kind.tags := by cases s.kind <;> decide
  unfold Operand.isLabel
  split
  · rename_i l hl
    rw [hl] at ht
    exact absurd ht hnot
  · rfl

end Render

namespace Select

variable {d : Descriptor} {ops : List Operand} {c : Context} {mn : String} {j : Nat}

/-- Binding sets the page exactly for a page mnemonic, in an opcode with a page-or-segment
slot. -/
theorem has_page0_bind (hj : j < d.shape.slots.length) (hjo : j < ops.length)
    (hp : d.shape.slots[j].kind = .pageSeg) :
    (bind d ops c mn).has .page0 = isPageMnemonic mn := by
  have hw : Field.page0 ∈ d.shape.slots[j].writes := by simp [Slot.writes, hp]
  unfold Fields.has
  rw [bind_get?_slot hj hjo hw]
  unfold bindSlot
  simp only [hp]
  cases isPageMnemonic mn <;> simp [Fields.setUInt]

/-- What the text of a slot reads from bound fields, the opcode's encoder packs. -/
theorem reads_subset_packs (hd : d ∈ Descriptor.all) (hacc : accepts d ops c mn = true)
    (hj : j < d.shape.slots.length) (hjo : j < ops.length) :
    ∀ f ∈ Render.reads d.shape.slots[j] (bind d ops c mn),
      f ∈ d.layout.packs (bind d ops c mn) := by
  have hs := List.getElem_mem hj
  have hcov := Layout.covers_table d hd _ hs
  intro f hf
  by_cases h3 : d.shape.slots[j].kind = .data3OrInd
  · -- the mode tag that binding set selects the third packed field
    have hl : d.layout = .data3OrReg := by simpa [Layout.covers, h3] using hcov
    have hens := (ensures_bind hacc _ hs).2.2
    simp only [h3] at hens
    simp only [Render.reads, h3, List.mem_cons] at hf
    rw [hl]
    rcases hens with ⟨hm, -⟩ | ⟨hm, -⟩
    · have hn : ¬ ((bind d ops c mn).text .mode0 = Mode.reg ∨
          (bind d ops c mn).text .mode0 = Mode.regInc) := by rw [hm]; decide
      simp only [hn, if_false, List.mem_singleton] at hf
      rcases hf with rfl | rfl <;> simp [Layout.packs, Layout.embedded, hm]
    · have hn : (bind d ops c mn).text .mode0 ≠ Mode.data3 := by
        rcases hm with hm | hm <;> rw [hm] <;> decide
      simp only [hm, if_true, List.mem_singleton] at hf
      rcases hf with rfl | rfl <;> simp [Layout.packs, Layout.embedded, hn]
  by_cases hp : d.shape.slots[j].kind = .pageSeg
  · -- the page is packed for a page mnemonic, as binding sets it
    have hl : d.layout = .extImm := by simpa [Layout.covers, hp] using hcov
    have hsub : d.layout.subTable.isSome = true := by simp [hl, Layout.subTable]
    have hmn : (bind d ops c mn).text .mnemonic = mn := by
      simp [Fields.text, bind_get?_mnemonic hsub]
    simp only [Render.reads, hp, has_page0_bind hj hjo hp] at hf
    rw [hl]
    cases hpm : isPageMnemonic mn <;> simp [hpm] at hf <;>
      simp [Layout.packs, Layout.embedded, hmn, hpm, hf]
  · -- any other slot reads its fields, which the layout always asks for
    have hfix : d.layout.fixedFields.contains d.shape.slots[j].field = true ∧
        d.shape.slots[j].aux.all d.layout.fixedFields.contains = true := by
      simpa [Layout.covers, h3, hp] using hcov
    apply Layout.fixedFields_subset_packs
    rcases Render.reads_subset _ h3 hp f hf with rfl | ha
    · simpa using hfix.1
    · rw [Option.mem_def] at ha
      rw [ha] at hfix
      simpa using hfix.2

/-- A slot means under all the bound fields what it means under its own operand's. -/
theorem slotMeaning_bind (hj : j < d.shape.slots.length) (hjo : j < ops.length)
    (extended : Bool) :
    Render.slotMeaning d.shape.slots[j] (bind d ops c mn) extended =
      Render.slotMeaning d.shape.slots[j] (bindSlot c mn d.length .empty d.shape.slots[j] ops[j])
        extended := by
  have hs := List.getElem_mem hj
  apply Render.slotMeaning_readAlike extended (d.shape.slot_text_facts _ hs).1
  · intro hp
    have hw : Field.page0 ∈ d.shape.slots[j].writes := by simp [Slot.writes, hp]
    simp only [Fields.has, bind_get?_slot hj hjo hw]
  · intro f hf
    exact Fields.readAlike_of_get? (bind_get?_slot hj hjo (Render.reads_subset_writes _ _ f hf))

variable {b : List UInt8} {g : Fields}

/-- **Decoding what was encoded keeps each slot's meaning**: the decoded fields agree with the
bound ones on every field the slot's text reads. -/
theorem slotMeaning_of_agrees (hd : d ∈ Descriptor.all) (hacc : accepts d ops c mn = true)
    (hdec : d.layout.decode b = .ok g) (hag : d.layout.Agrees (bind d ops c mn) g)
    (hj : j < d.shape.slots.length) (hjo : j < ops.length) (extended : Bool) :
    Render.slotMeaning d.shape.slots[j] g extended =
      Render.slotMeaning d.shape.slots[j] (bind d ops c mn) extended := by
  have hs := List.getElem_mem hj
  apply Render.slotMeaning_readAlike extended (d.shape.slot_text_facts _ hs).1
  · -- decoding sets the page for a page mnemonic, as binding does
    intro hp
    have hl : d.layout = .extImm := by
      simpa [Layout.covers, hp] using Layout.covers_table d hd _ hs
    have hsub : d.layout.subTable.isSome = true := by simp [hl, Layout.subTable]
    rw [Layout.has_page0_of_decode (hl ▸ hdec), text_mnemonic_of_agrees hsub hag,
      has_page0_bind hj hjo hp]
  · intro f hf
    obtain ⟨v, w, hv, hw, hsame⟩ := hag f (reads_subset_packs hd hacc hj hjo f hf)
    have hmn : f ≠ .mnemonic := fun h =>
      d.shape.mnemonic_not_mem_writes _ hs (h ▸ Render.reads_subset_writes _ _ f hf)
    exact Fields.readAlike_of_sameValue hmn hw hv hsame

end Select

/-! ## §5. The main statement -/

/-- Selection picks the opcode that the search of a lower-case mnemonic's opcodes finds, with
the operands bound to it. -/
theorem Select.select_of_find? {mn : String} {ops : List Operand} {c : Context} {d : Descriptor}
    (hl : Text.lower mn = mn)
    (hf : (Descriptor.byMnemonic mn).find? (accepts · ops c mn) = some d) :
    select mn ops c = .ok (d, bind d ops c mn) := by
  cases hb : Descriptor.byMnemonic mn with
  | nil => simp [hb] at hf
  | cons d0 ds =>
    rw [hb] at hf
    simp only [select, hl, hb, hf]

namespace Render

variable {d d' : Descriptor} {fs : Fields} {mn : String} {c : Context}

/-- **An opcode that selection finds for the operands of a decoded text keeps their meaning**:
when the operands are written from decoded fields of `d`, an opcode `d'` that accepts them and
is `d` or rebinds the operands of `d` gives each of its slots the meaning that the slot of `d`
at its place had. -/
theorem slotMeaning_reselect (hdec : ∀ s ∈ d.shape.slots, s.Decoded mn fs)
    (hacc : Select.accepts d' (d.shape.slots.map fun s => slotOperand s fs c.extended) c mn = true)
    (hreb : d' = d ∨ d.rebinds d' = true) {j : Nat} (hj : j < d.shape.slots.length)
    (hj' : j < d'.shape.slots.length) :
    slotMeaning d'.shape.slots[j]
        (Select.bindSlot c mn d'.length .empty d'.shape.slots[j]
          (slotOperand d.shape.slots[j] fs c.extended)) c.extended =
      slotMeaning d.shape.slots[j] fs c.extended := by
  obtain ⟨hcount, hfits⟩ := Select.slot_fits_of_accepts hacc
  obtain ⟨hk, hw, hr⟩ := hfits j hj' (by simpa using hj)
  simp only [List.getElem_map] at hk hw hr
  have hs' := List.getElem_mem hj'
  -- the operand lands in a slot of its own class
  have hclass : d.shape.slots[j].kind.sameClass d'.shape.slots[j].kind = true := by
    rcases hreb with rfl | hreb
    · simp [SlotKind.sameClass]
    · exact Descriptor.sameClass_of_rebinds hreb (by simpa using hcount) hj hj'
        (tag_slotOperand _ fs c.extended) (Select.admits_tag hk hw hr)
  exact slotMeaning_rebind hclass (hdec _ (List.getElem_mem hj)) (d'.shape.aux_ne_field _ hs')
    (d'.shape.slot_text_facts _ hs').2 hk hw hr

/-- The operands of a decoded text, encoded by an opcode that selection finds and decoded again,
mean slot by slot what they meant. -/
theorem meanings_reencode {g : Fields} {b : List UInt8}
    (hdec : ∀ s ∈ d.shape.slots, s.Decoded mn fs)
    (hd' : d' ∈ Descriptor.all)
    (hacc : Select.accepts d' (d.shape.slots.map fun s => slotOperand s fs c.extended) c mn = true)
    (hreb : d' = d ∨ d.rebinds d' = true) (hg : d'.layout.decode b = .ok g)
    (hag : d'.layout.Agrees
      (Select.bind d' (d.shape.slots.map fun s => slotOperand s fs c.extended) c mn) g) :
    d'.shape.slots.map (fun s => slotMeaning s g c.extended) =
      d.shape.slots.map fun s => slotMeaning s fs c.extended := by
  have hcount : d'.shape.slots.length = d.shape.slots.length := by
    simpa using (Select.slot_fits_of_accepts hacc).1
  apply List.ext_getElem (by simp [hcount])
  intro j hj1 hj2
  have hj' : j < d'.shape.slots.length := by simpa using hj1
  have hj : j < d.shape.slots.length := by simpa using hj2
  have hjo : j < (d.shape.slots.map fun s => slotOperand s fs c.extended).length := by
    simpa using hj
  -- decoded fields, then all the bound fields, then the slot's own operand
  rw [List.getElem_map, List.getElem_map, Select.slotMeaning_of_agrees hd' hacc hg hag hj' hjo,
    Select.slotMeaning_bind hj' hjo, List.getElem_map, slotMeaning_reselect hdec hacc hreb hj hj']

end Render

namespace Instruction

variable {code : List UInt8} {pc : UInt32} {i : Instruction}

/-- A decoded instruction's opcode is one of the table. -/
theorem mem_all_of_decode (h : decode code pc = .ok i) : i.descriptor ∈ Descriptor.all := by
  obtain ⟨op, rest, d, fs, -, hd, -, rfl⟩ := decode_eq_ok h
  exact Descriptor.mem_all_of_lookup? hd

/-- **The operands of a decoded instruction's text encode again, to an instruction of the same
meaning**, in any context: selection finds an opcode for them, which encodes them to bytes that
decode at every address to an instruction with the same mnemonic and the same operand
meanings in the context's window. -/
theorem encodeIn_operands (h : decode code pc = .ok i) (c : Context) :
    ∃ b, encodeIn i.mnemonic
          (i.descriptor.shape.slots.map fun s => Render.slotOperand s i.fields c.extended) c =
        .ok b ∧
      ∀ pc', ∃ j, decode b pc' = .ok j ∧ j.meaning c.extended = i.meaning c.extended := by
  have hall := mem_all_of_decode h
  have hmn := (mnemonic_of_decode h).2
  have hlower := Text.lower_of_isMnemonicText (Descriptor.mnemonic_facts hall hmn).1
  have hdm := Descriptor.mem_byMnemonic_of_mem hall hmn (Layout.length_eq _)
  have hdec := decoded_of_decode h
  have hacc := Render.accepts_operands c hdec (embedded_of_decode h)
  -- selection finds the decoded opcode or one that the mnemonic tries before it
  have hsome : ((Descriptor.byMnemonic i.mnemonic).find? (Select.accepts ·
      (i.descriptor.shape.slots.map fun s => Render.slotOperand s i.fields c.extended) c
      i.mnemonic)).isSome = true :=
    List.find?_isSome.mpr ⟨_, hdm, hacc⟩
  obtain ⟨d', hfind⟩ := Option.isSome_iff_exists.mp hsome
  have hd' := List.mem_of_find?_eq_some hfind
  have hacc' := List.find?_some hfind
  obtain ⟨hall', hmn'⟩ := Select.mem_byMnemonic hd'
  obtain ⟨b, he⟩ := Select.encode_ok_of_accepts hd' hacc'
  refine ⟨b, by simp [encodeIn, Select.select_of_find? hlower hfind, he], fun pc' => ?_⟩
  obtain ⟨g, hdecb, hg, hag⟩ := decode_of_encode hall' he pc'
  refine ⟨_, hdecb, ?_⟩
  simp only [meaning, Prod.mk.injEq]
  exact ⟨Select.mnemonic_of_agrees pc' hmn' hg hag,
    Render.meanings_reencode hdec hall' hacc' (Descriptor.rebinds_of_find? hdm hacc hfind) hg hag⟩

/-- **The text of a decoded instruction reassembles to an instruction of the same meaning.**
Whatever bytes decode at whatever address, the instruction's text assembles in the window it
was written for, to bytes `b`: outside the ext window as a line on its own, inside it as the
line after the prefix `extr #1`, at every load address. And `b` decodes at every address to an
instruction with the same meaning: the same mnemonic and, slot by slot, the same operand text,
a short register address below F0h compared as the word it names in the window and a memory
operand as its address. -/
theorem text_reassembles (h : decode code pc = .ok i) (extended : Bool) :
    ∃ b, (extended = false → encodeLine (i.text extended) = .ok b) ∧
      (extended = true → ∀ base : UInt32,
        (assemble ("extr #1\n" ++ i.text extended) base).result = .ok ([0xD1, 0x80] ++ b)) ∧
      ∀ pc', ∃ j, decode b pc' = .ok j ∧ j.meaning extended = i.meaning extended := by
  have hall := mem_all_of_decode h
  have hmn := (mnemonic_of_decode h).2
  obtain ⟨hmnText, hdir⟩ := Descriptor.mnemonic_facts hall hmn
  have hknown : (Descriptor.byMnemonic i.mnemonic).isEmpty = false := by
    simpa [List.isEmpty_iff] using
      List.ne_nil_of_mem (Descriptor.mem_byMnemonic_of_mem hall hmn (Layout.length_eq _))
  -- the line of the text: standalone operand texts that parse back to the written operands
  have hstand : ∀ o ∈ i.operandTexts extended, Render.Standalone o := by
    intro o ho
    obtain ⟨s, -, rfl⟩ := List.mem_map.mp ho
    exact Render.standalone_operand s i.fields extended
  have hparse := Render.parseOperands_operands extended _ (decoded_of_decode h)
  obtain ⟨b, hin, hdecb⟩ := encodeIn_operands h { extended := extended }
  refine ⟨b, fun he => ?_, fun he base => ?_, hdecb⟩
  · subst he
    rw [Instruction.text, Statement.encodeLine_line hmnText hdir hknown hstand hparse]
    exact hin
  · subst he
    have hchars := Statement.line_chars hmnText hstand
    have hne : (i.text true).toList ≠ [] := by
      rw [Instruction.text, Statement.toList_line]
      intro hnil
      simp [List.append_eq_nil_iff.mp hnil, Text.isMnemonicText] at hmnText
    refine assemble_extLine (fun ch hch => ⟨(hchars ch hch).1, (hchars ch hch).2.1⟩) hne
      (Statement.parse_line hmnText hdir hknown hstand hparse) (fun o ho => ?_) hin base
    obtain ⟨s, -, rfl⟩ := List.mem_map.mp ho
    exact Render.isLabel_slotOperand s i.fields true

end Instruction

/-- `add r14, [r2+]`, read from `08 EE`, reassembles behind `extr #1` and decodes back to an
instruction of the same meaning. -/
theorem postInc_text_reassembles :
    ∃ i, Instruction.decode [0x08, 0xEE] 0 = .ok i ∧
      ∃ b, (true = false → encodeLine (i.text true) = .ok b) ∧
        (true = true → ∀ base : UInt32,
          (assemble ("extr #1\n" ++ i.text true) base).result = .ok ([0xD1, 0x80] ++ b)) ∧
        ∀ pc', ∃ j, Instruction.decode b pc' = .ok j ∧ j.meaning true = i.meaning true := by
  obtain ⟨i, hi⟩ : ∃ i, Instruction.decode [0x08, 0xEE] 0 = .ok i := ⟨_, rfl⟩
  exact ⟨i, hi, Instruction.text_reassembles hi true⟩

end C166Codec
