import C166Codec.Proofs.LineText
/-!
# What an operand means, and what rebinding its text keeps

Two encodings of one instruction may hold an operand in different slots: `add DPP0, r1` is
the register form with a short address or the memory form with a 16-bit one. An operand's
meaning (`Render.slotMeaning`) therefore reads a short register address below F0h and a memory
operand as the word they name, and every other operand as its text. An instruction's meaning
(`Instruction.meaning`) is its mnemonic and the meanings of its operands.

The text of a slot reads back as the operand `Render.slotOperand`. This module follows that
operand into any slot that selection lets it into and shows the new slot means the same:

* selection's kind, width and literal-width rules see only an operand's tag (`FormTag`,
  `Select.admits_tag`), and the operand of a slot has a tag of its kind
  (`Render.tag_slotOperand`);
* binding sets the fields a slot writes over whatever was there (`Select.bindSlot_get?`);
* register and memory kinds read a bound operand as the word it names, short literal kinds as
  its two-digit text, both as `Render.formMeaning` says; any other kind reads its own operand
  back as the same text.

Main statement, `Render.slotMeaning_rebind`: binding the operand written for slot `s` into a
slot `s'` of the same class that accepts it gives fields under which `s'` means what `s`
meant.

Sections: §1 meanings, §2 fields that read alike, §3 tags, §4 binding, §5 register and memory
slots, §6 short literal slots, §7 the other slots, §8 the main statement.
-/

namespace C166Codec

/-! ## §1. Meanings -/

/-- What an operand stands for when two encodings of an instruction are compared: a word by
its address, or the operand's text. -/
inductive OperandMeaning where
  | address (a : Nat)
  | text (s : String)
  deriving DecidableEq, Repr

namespace Render

/-- The meaning of the operand in slot `s`: a short register address below F0h as the word it
names in the window chosen by `extended`, a memory operand as its address, and any other
operand, bank registers too, as its text. -/
def slotMeaning (s : Slot) (fs : Fields) (extended : Bool) : OperandMeaning :=
  match s.kind, ShortAddress.regAddress? (fs.uint s.field).toUInt8 extended with
  | .regW, some a | .regB, some a => .address a.toNat
  | .mem, _ => .address (fs.uint s.field).toNat
  | _, _ => .text (operand s fs extended)

variable {s : Slot} {fs : Fields} {extended : Bool}

theorem slotMeaning_mem (hk : s.kind = .mem) :
    slotMeaning s fs extended = .address (fs.uint s.field).toNat := by
  simp [slotMeaning, hk]

theorem slotMeaning_reg {a : UInt16} (hk : s.kind = .regW ∨ s.kind = .regB)
    (ha : ShortAddress.regAddress? (fs.uint s.field).toUInt8 extended = some a) :
    slotMeaning s fs extended = .address a.toNat := by
  rcases hk with hk | hk <;> simp [slotMeaning, hk, ha]

theorem slotMeaning_bank (hk : s.kind = .regW ∨ s.kind = .regB)
    (ha : ShortAddress.regAddress? (fs.uint s.field).toUInt8 extended = none) :
    slotMeaning s fs extended = .text (operand s fs extended) := by
  rcases hk with hk | hk <;> simp [slotMeaning, hk, ha]

theorem slotMeaning_text (hk : s.kind ≠ .regW ∧ s.kind ≠ .regB ∧ s.kind ≠ .mem) :
    slotMeaning s fs extended = .text (operand s fs extended) := by
  unfold slotMeaning
  split <;> simp_all

end Render

/-- The meaning of an instruction: its mnemonic, then the meanings of its operands in assembly
order. -/
def Instruction.meaning (i : Instruction) (extended : Bool) : String × List OperandMeaning :=
  (i.mnemonic, i.descriptor.shape.slots.map fun s => Render.slotMeaning s i.fields extended)

/-! ## §2. Fields that read alike -/

/-- A value read as a signed number has the bits it has as an unsigned one. -/
theorem Value.asInt_eq (v : Value) : v.asInt = v.asUInt.toInt32 := by
  cases v <;> simp [Value.asInt, Value.asUInt, Int32.toInt32_toUInt32]

namespace Fields

@[simp] theorem has_empty (f : Field) : empty.has f = false := rfl

@[simp] theorem uint_empty (f : Field) : empty.uint f = 0 := rfl

@[simp] theorem has_setUInt (fs : Fields) (f g : Field) (n : UInt32) :
    (fs.setUInt f n).has g = (decide (g = f) || fs.has g) := by
  by_cases h : g = f <;> simp [has, setUInt, h]

@[simp] theorem uint_setUInt (fs : Fields) (f g : Field) (n : UInt32) :
    (fs.setUInt f n).uint g = if g = f then n else fs.uint g := by
  by_cases h : g = f <;> simp [uint, setUInt, h, Value.asUInt]

/-- Field `f` reads alike in `fs` and `fs'`: set in both or in neither, and with one text if it
is the mode tag, one number otherwise. -/
def ReadAlike (fs fs' : Fields) (f : Field) : Prop :=
  fs'.has f = fs.has f ∧
    if f = .mode0 then fs'.text f = fs.text f else fs'.uint f = fs.uint f ∧ fs'.int f = fs.int f

theorem readAlike_of_get? {fs fs' : Fields} {f : Field} (h : fs'.get? f = fs.get? f) :
    fs.ReadAlike fs' f := by
  simp [ReadAlike, has, text, uint, int, h]

/-- Values that a layout counts as the same read alike, the mnemonic apart. -/
theorem readAlike_of_sameValue {fs fs' : Fields} {f : Field} {v w : Value} (hf : f ≠ .mnemonic)
    (hv : fs.get? f = some v) (hw : fs'.get? f = some w) (hs : Layout.sameValue f w v) :
    fs.ReadAlike fs' f := by
  -- a number field agrees by its bits, whether they are read signed or unsigned
  have hnum : w.asUInt = v.asUInt → fs'.uint f = fs.uint f ∧ fs'.int f = fs.int f := fun h => by
    simp [uint, int, hv, hw, Value.asInt_eq, h]
  refine ⟨by simp [has, hv, hw], ?_⟩
  cases f <;> simp only [Layout.sameValue] at hs <;> simp only [reduceCtorEq, if_false, if_true]
  case relative0 =>
    refine hnum ?_
    rw [← UInt32.toUInt32_toInt32 w.asUInt, ← UInt32.toUInt32_toInt32 v.asUInt,
      ← Value.asInt_eq, ← Value.asInt_eq, hs]
  case mode0 => simp [text, hv, hw, hs]
  case mnemonic => exact absurd rfl hf
  all_goals exact hnum hs

end Fields

namespace Render

variable {s : Slot} {fs fs' : Fields}

/-- The text of an operand sees only the fields it reads, through `uint`, `int`, `has` and
the mode tag's text, and whether a page is set: two maps where those read alike write the same
text. -/
theorem operand_readAlike (extended : Bool) (hm : s.field ≠ .mode0 ∧ ∀ a ∈ s.aux, a ≠ .mode0)
    (hp : s.kind = .pageSeg → fs'.has .page0 = fs.has .page0)
    (h : ∀ f ∈ reads s fs, fs.ReadAlike fs' f) :
    reads s fs' = reads s fs ∧ operand s fs' extended = operand s fs extended := by
  have hnum : ∀ f ∈ reads s fs, f ≠ .mode0 → fs'.uint f = fs.uint f ∧ fs'.int f = fs.int f :=
    fun f hf hne => by simpa [Fields.ReadAlike, hne] using (h f hf).2
  unfold operand
  cases hk : s.kind
  case data3OrInd =>
    have ht : fs'.text .mode0 = fs.text .mode0 := by
      simpa [Fields.ReadAlike] using (h .mode0 (by simp [reads, hk])).2
    have hr : reads s fs' = reads s fs := by simp [reads, hk, ht]
    refine ⟨hr, ?_⟩
    unfold data3OrInd
    by_cases hi : fs.text .mode0 = Mode.reg ∨ fs.text .mode0 = Mode.regInc
    · have h1 := hnum .register1 (by simp [reads, hk, hi]) (by decide)
      rcases hi with hi | hi <;> simp [ht, hi, h1.1]
    · have h0 := hnum .data0 (by simp [reads, hk, hi]) (by decide)
      simp only [not_or] at hi
      simp [ht, hi, h0.1]
  case pageSeg =>
    by_cases hq : fs.has .page0 = true
    · have hs := (h .page0 (by simp [reads, hk, hq])).1
      have h1 := hnum .page0 (by simp [reads, hk, hq]) (by decide)
      simp [reads, hk, hq, hs, h1.1]
    · have hq' : fs'.has .page0 = false := by simpa [hq] using hp hk
      have h1 := hnum .segment0 (by simp [reads, hk, hq]) (by decide)
      simp [reads, hk, hq, hq', h1.1]
  all_goals
    have hf := hnum s.field (by simp [reads, hk]) hm.1
    refine ⟨by simp [reads, hk], ?_⟩
  case indOff | bitAddr =>
    cases ha : s.aux with
    | none => simp [hf.1]
    | some a =>
      have hx := hnum a (by simp [reads, hk, ha]) (hm.2 a ha)
      simp [hf.1, hx.1]
  all_goals simp [hf.1, hf.2]

/-- The meaning of an operand sees only the fields its text reads. -/
theorem slotMeaning_readAlike (extended : Bool) (hm : s.field ≠ .mode0 ∧ ∀ a ∈ s.aux, a ≠ .mode0)
    (hp : s.kind = .pageSeg → fs'.has .page0 = fs.has .page0)
    (h : ∀ f ∈ reads s fs, fs.ReadAlike fs' f) :
    slotMeaning s fs' extended = slotMeaning s fs extended := by
  obtain ⟨-, hop⟩ := operand_readAlike extended hm hp h
  by_cases hg : s.kind = .regW ∨ s.kind = .regB ∨ s.kind = .mem
  · have hf : s.field ∈ reads s fs := by rcases hg with hg | hg | hg <;> simp [reads, hg]
    have hu : fs'.uint s.field = fs.uint s.field := by
      have hr := (h s.field hf).2
      simp only [hm.1, if_false] at hr
      exact hr.1
    unfold slotMeaning
    rw [hu, hop]
  · simp only [not_or] at hg
    rw [slotMeaning_text hg, slotMeaning_text hg, hop]

end Render

/-! ## §3. Tags -/

/-- What selection's kind, width and literal-width rules read of an operand form: which form it
is, the width of a register, and whether a literal was written wide. -/
inductive FormTag where
  | wordRegister
  | byteRegister
  | specialRegister
  | indirect
  | postInc
  | preDec
  | indexed
  | narrowImmediate
  | wideImmediate
  | direct
  | bitAddr
  | condition
  | relative
  | label
  deriving DecidableEq, Repr

/-- The tag of an operand form. -/
def OperandForm.tag : OperandForm → FormTag
  | .register (.word _) => .wordRegister
  | .register (.byte _) => .byteRegister
  | .register (.special _) => .specialRegister
  | .indirect _ => .indirect
  | .postInc _ => .postInc
  | .preDec _ => .preDec
  | .indexed .. => .indexed
  | .immediate _ true => .wideImmediate
  | .immediate _ false => .narrowImmediate
  | .direct .. => .direct
  | .bitAddr .. => .bitAddr
  | .condition _ => .condition
  | .relative _ => .relative
  | .label _ => .label

theorem OperandForm.tag_immediate (v : Nat) (w : Bool) :
    (OperandForm.immediate v w).tag ∈ [.narrowImmediate, .wideImmediate] := by
  cases w <;> simp [OperandForm.tag]

/-- The tags that a slot kind lets in under selection's kind and width rules and the
literal-width part of its range rule. -/
def SlotKind.admits : SlotKind → FormTag → Bool
  | .rw, .wordRegister | .rb, .byteRegister => true
  | .regW, .wordRegister | .regW, .specialRegister | .regW, .direct => true
  | .regB, .byteRegister | .regB, .specialRegister | .regB, .direct => true
  | .mem, .specialRegister | .mem, .direct => true
  | .ind, .indirect | .postInc, .postInc | .preDec, .preDec | .indOff, .indexed => true
  | .data3OrInd, .narrowImmediate | .data3OrInd, .indirect | .data3OrInd, .postInc => true
  | .data4, .narrowImmediate => true
  | .data8, .narrowImmediate | .data8, .wideImmediate => true
  | .data16, .narrowImmediate | .data16, .wideImmediate => true
  | .mask8, .narrowImmediate | .mask8, .wideImmediate => true
  | .pageSeg, .narrowImmediate | .pageSeg, .wideImmediate => true
  | .irange, .narrowImmediate | .irange, .wideImmediate => true
  | .trap, .narrowImmediate | .trap, .wideImmediate => true
  | .bitAddr, .bitAddr => true
  | .bitoff, .wordRegister | .bitoff, .specialRegister | .bitoff, .direct => true
  | .cond, .condition => true
  | .rel, .relative | .rel, .label => true
  | .caddr, .direct | .caddr, .label => true
  | .seg, .direct => true
  | _, _ => false

/-- The tags of the operands written for a slot kind. -/
def SlotKind.tags : SlotKind → List FormTag
  | .rw => [.wordRegister]
  | .rb => [.byteRegister]
  | .regW | .bitoff => [.wordRegister, .specialRegister, .direct]
  | .regB => [.byteRegister, .specialRegister, .direct]
  | .ind => [.indirect]
  | .postInc => [.postInc]
  | .preDec => [.preDec]
  | .indOff => [.indexed]
  | .data3OrInd => [.indirect, .postInc, .narrowImmediate, .wideImmediate]
  | .data16 => [.wideImmediate]
  | .irange => [.narrowImmediate]
  | .data4 | .data8 | .mask8 | .trap | .pageSeg => [.narrowImmediate, .wideImmediate]
  | .bitAddr => [.bitAddr]
  | .cond => [.condition]
  | .rel => [.relative]
  | .mem | .caddr | .seg => [.direct]

namespace Select

variable {c : Context} {mn : String} {len : Nat}

/-- **Selection's kind and width rules, and the literal-width part of the range rule, see only
an operand's tag.** -/
theorem admits_tag {k : SlotKind} {o : Operand} (hk : kindFits k o = true)
    (hw : widthFits k o = true) (hr : rangeFits c mn len k o = true) :
    k.admits o.form.tag = true := by
  obtain ⟨f, raw⟩ := o
  cases f
  case register r =>
    cases r <;> cases k <;>
      simp_all [kindFits, widthFits, Register.isGeneral, OperandForm.tag, SlotKind.admits]
  case immediate v w =>
    cases w <;> cases k <;>
      simp_all [kindFits, rangeFits, Operand.wide, OperandForm.tag, SlotKind.admits]
  all_goals cases k <;> simp_all [kindFits, OperandForm.tag, SlotKind.admits]

end Select

namespace Render

/-- The operand that the text of slot `s` reads back as (`Render.parse_operand`). -/
def slotOperand (s : Slot) (fs : Fields) (extended : Bool) : Operand :=
  ⟨operandForm s fs extended, operand s fs extended⟩

/-- The name of a short register address is a bank register of the access width, a special
function register or a word address. -/
theorem tag_regForm (s : UInt8) (w : Width) (extended : Bool) :
    (regForm s w extended).tag ∈
      [if w = .byte then .byteRegister else .wordRegister, .specialRegister, .direct] := by
  by_cases hs : s ≥ 0xF0
  · by_cases hw : w = .byte <;> simp [regForm, hs, hw, OperandForm.tag]
  · simp only [regForm, hs, if_false]
    cases SpecialRegister.atAddress? ((ShortAddress.regAddress? s extended).getD 0) <;>
      simp [OperandForm.tag]

/-- The operand written for a slot has a tag of the slot's kind. -/
theorem tag_slotOperand (s : Slot) (fs : Fields) (extended : Bool) :
    (slotOperand s fs extended).form.tag ∈ s.kind.tags := by
  obtain ⟨kind, field, aux⟩ := s
  cases kind <;> simp only [slotOperand, operandForm, SlotKind.tags]
  case regW => simpa using tag_regForm (fs.uint field).toNat.toUInt8 .word extended
  case regB => simpa using tag_regForm (fs.uint field).toNat.toUInt8 .byte extended
  case bitoff =>
    rcases bitName_cases (fs.uint field).toUInt8 extended with ⟨n, -, hw⟩ |
        ⟨r, -, -, -, hw⟩ | ⟨a, -, -, -, hw⟩ <;> simp [hw, bitWordForm, OperandForm.tag]
  case data3OrInd =>
    simp only [data3OrIndForm]
    split_ifs
    · simp [OperandForm.tag]
    · simp [OperandForm.tag]
    · exact List.mem_cons_of_mem _ (List.mem_cons_of_mem _ (OperandForm.tag_immediate _ _))
  case data4 | data8 | mask8 | trap => exact OperandForm.tag_immediate _ _
  case pageSeg => split_ifs <;> exact OperandForm.tag_immediate _ _
  all_goals simp [OperandForm.tag]

end Render

/-! ## §4. Binding -/

namespace Select

variable {c : Context} {mn : String} {len : Nat}

/-- Binding an operand writes over the fields before: a field holds what binding into the empty
map sets, or else what it held. -/
theorem bindSlot_get?_or (fs : Fields) (s : Slot) (o : Operand) (f : Field) :
    (bindSlot c mn len fs s o).get? f = ((bindSlot c mn len .empty s o).get? f).or (fs.get? f) := by
  unfold bindSlot
  cases hk : s.kind
  case indOff | bitAddr => cases s.aux <;> simp [Fields.setUInt] <;> split_ifs <;> simp
  case data3OrInd => cases o.form <;> simp [Fields.setUInt, Fields.setText] <;> split_ifs <;> simp
  all_goals
    simp only [Fields.setUInt, Fields.setInt, Fields.get?_set, Fields.get?_empty]
    split_ifs <;> simp

/-- A field that slot `j` writes holds, after binding every operand, what binding the slot's
operand alone into the empty map sets: no other slot writes the field, and the map that
binding starts from holds at most the mnemonic. -/
theorem bind_get?_slot {d : Descriptor} {ops : List Operand} {j : Nat}
    (hj : j < d.shape.slots.length) (hjo : j < ops.length) {f : Field}
    (hf : f ∈ d.shape.slots[j].writes) :
    (bind d ops c mn).get? f = (bindSlot c mn d.length .empty d.shape.slots[j] ops[j]).get? f := by
  have hpw := List.pairwise_iff_getElem.mp d.shape.writes_pairwise
  unfold bind
  set ps := d.shape.slots.zip ops with hps
  have hjp : j < ps.length := by simp [ps, hj, hjo]
  have hsplit : ps = ps.take j ++ ps[j] :: ps.drop (j + 1) := by
    rw [List.getElem_cons_drop, List.take_append_drop]
  have hpj : ps[j] = (d.shape.slots[j], ops[j]) := List.getElem_zip
  -- the slots after `j`, and those before it, leave `f` alone
  have hlater : ∀ p ∈ ps.drop (j + 1), f ∉ p.1.writes := by
    intro p hp
    obtain ⟨m, hm, rfl⟩ := List.getElem_of_mem hp
    have hk : j + 1 + m < d.shape.slots.length := by simp [ps] at hm; omega
    rw [List.getElem_drop, List.getElem_zip]
    exact hpw j (j + 1 + m) hj hk (by omega) f hf
  have hearlier : ∀ p ∈ ps.take j, f ∉ p.1.writes := by
    intro p hp
    obtain ⟨m, hm, rfl⟩ := List.getElem_of_mem hp
    have hmj : m < j := by simp [ps] at hm; omega
    rw [List.getElem_take, List.getElem_zip]
    exact fun hm' => hpw m j (by omega) hj hmj f hm' hf
  have hmn : f ≠ .mnemonic := fun h =>
    d.shape.mnemonic_not_mem_writes _ (List.getElem_mem hj) (h ▸ hf)
  rw [hsplit, List.foldl_append, List.foldl_cons, foldl_bindSlot_get? hlater, hpj,
    bindSlot_get?_or, foldl_bindSlot_get? hearlier]
  split <;> simp [Fields.setText, hmn]

end Select

/-! ## §5. Register and memory slots -/

/-- The kinds whose operand is a register or a memory word. -/
def SlotKind.isRegisterOrMemory : SlotKind → Bool
  | .rw | .rb | .regW | .regB | .mem => true
  | _ => false

namespace Render

/-- The meaning of an operand form in a register, memory or short literal slot: a special
function register or a memory word as its address, a bank register as its name, a literal as
its two-digit text, an indirect register as its text. No such slot takes another form. -/
def formMeaning : OperandForm → OperandMeaning
  | .register (.special r) => .address r.address.toNat
  | .register r => .text r.render
  | .direct v _ => .address v
  | .immediate v _ => .text (imm2 v)
  | .indirect n => .text ("[" ++ Register.wordName n ++ "]")
  | .postInc n => .text ("[" ++ Register.wordName n ++ "+]")
  | _ => .text ""

end Render

/-- The short address of a bank register is F0h plus its number. -/
theorem Register.bankShort_toNat : ∀ n : Fin 16, ((0xF0 : UInt8) ||| n.val.toUInt8).toNat = 240 + n.val := by
  decide

namespace Select

open Render

/-- A register short address is F0h plus the number of a bank register, or names a word below
F0h that is the operand's meaning. -/
theorem regShort?_cases {o : Operand} {extended : Bool} {x : UInt8}
    (h : regShort? o extended = some x) :
    (∃ r, o.form = .register r ∧ r.isGeneral = true ∧ x.toNat = 240 + r.num) ∨
      ∃ a, ShortAddress.regAddress? x extended = some a ∧ formMeaning o.form = .address a.toNat := by
  unfold regShort? at h
  split at h
  · rename_i r hf
    by_cases hg : r.isGeneral = true
    · simp only [hg, if_true, Option.some.injEq] at h
      refine .inl ⟨r, hf, hg, ?_⟩
      cases r <;> simp [Register.isGeneral] at hg <;>
        simpa [← h, Register.num] using Register.bankShort_toNat _
    · simp only [hg, Bool.false_eq_true, if_false] at h
      cases r <;> simp [Register.isGeneral] at hg
      exact .inr ⟨_, (ShortAddress.regAddress?_of_regShort? h).2, by simp [hf, formMeaning, Register.address]⟩
  · rename_i v w hf
    split_ifs at h with hv
    exact .inr ⟨_, (ShortAddress.regAddress?_of_regShort? h).2, by simp [hf, formMeaning]; omega⟩
  · cases h

/-- A 16-bit address of an operand is its meaning. -/
theorem formMeaning_of_memAddress? {o : Operand} {a : UInt16} (h : memAddress? o = some a) :
    formMeaning o.form = .address a.toNat := by
  unfold memAddress? at h
  split at h
  · rename_i v w hf
    split_ifs at h with hv
    cases h
    simp [hf, formMeaning]; omega
  · rename_i r hf
    split_ifs at h with hg
    cases h
    cases r <;> simp [Register.isGeneral] at hg
    simp [hf, formMeaning, Register.address]
  · cases h

variable {c : Context} {mn : String} {len : Nat}

/-- A short register slot reads a bound operand that has a short address as its meaning. -/
theorem slotMeaning_bindSlot_reg {s : Slot} {o : Operand} (hk : s.kind = .regW ∨ s.kind = .regB)
    (hw : widthFits s.kind o = true) {x : UInt8} (hx : regShort? o c.extended = some x) :
    slotMeaning s (bindSlot c mn len .empty s o) c.extended = formMeaning o.form := by
  have hu : ((bindSlot c mn len .empty s o).uint s.field).toUInt8 = x := by
    rcases hk with hk | hk <;> simp [bindSlot, hk, hx]
  rcases regShort?_cases hx with ⟨r, hf, hg, hn⟩ | ⟨a, ha, hm⟩
  · -- a bank register, named by the low nibble of its short address
    have hge : ¬ x < 0xF0 := by rw [UInt8.lt_iff_toNat_lt, hn]; simp
    rw [slotMeaning_bank hk (by rw [hu]; exact ShortAddress.regAddress?_of_ge hge _), hf]
    have hop : operand s (bindSlot c mn len .empty s o) c.extended =
        regName x (if s.kind = .regB then .byte else .word) c.extended := by
      rcases hk with hk | hk <;> simp [operand, hk, ← hu]
    have hn' : x.toNat % 16 = r.num := by have := r.num_lt; omega
    simp only [widthFits, hf] at hw
    rw [hop]
    rcases hk with hk | hk <;> rw [hk] at hw <;>
      cases r <;> simp [Register.isGeneral] at hg <;> simp at hw <;>
      simp [hk, regName, hn', UInt8.not_lt.mp hge, formMeaning, Register.render, Register.num]
  · rw [slotMeaning_reg hk (by rw [hu]; exact ha), hm]

/-- **A register or memory slot reads a bound operand as the operand's meaning.** -/
theorem slotMeaning_bindSlot_registerOrMemory {s : Slot} {o : Operand}
    (hk : s.kind.isRegisterOrMemory = true) (hkf : kindFits s.kind o = true)
    (hw : widthFits s.kind o = true) (hr : rangeFits c mn len s.kind o = true) :
    slotMeaning s (bindSlot c mn len .empty s o) c.extended = formMeaning o.form := by
  obtain ⟨kind, field, aux⟩ := s
  cases kind <;> simp only [SlotKind.isRegisterOrMemory, Bool.false_eq_true] at hk
  case mem =>
    simp only [rangeFits, Option.isSome_iff_exists] at hr
    obtain ⟨a, ha⟩ := hr
    rw [slotMeaning_mem rfl, formMeaning_of_memAddress? ha]
    simp [bindSlot, ha]
  case regW | regB =>
    simp only [rangeFits, Option.isSome_iff_exists] at hr
    obtain ⟨x, hx⟩ := hr
    exact slotMeaning_bindSlot_reg (by simp) hw hx
  case rw | rb =>
    obtain ⟨f, raw⟩ := o
    cases f <;> simp [kindFits] at hkf
    rename_i r
    rw [slotMeaning_text (by simp)]
    cases r <;> simp [widthFits] at hw
    simp (disch := omega) [bindSlot, operand, formMeaning, Register.render, Operand.regNum,
      Operand.register?, Register.num, Nat.mod_eq_of_lt]

end Select

namespace Render

variable {extended : Bool}

/-- The name of a short register address below F0h means the word it names. -/
theorem formMeaning_regForm_of_lt {x : UInt8} (hx : x < 0xF0) {a : UInt16}
    (ha : ShortAddress.regAddress? x extended = some a) (w : Width) :
    formMeaning (regForm x w extended) = .address a.toNat := by
  simp only [regForm, ge_iff_le, UInt8.not_le.mpr hx, if_false, ha, Option.getD_some]
  cases hr : SpecialRegister.atAddress? a with
  | some r => simp [formMeaning, (SpecialRegister.atAddress?_spec hr).2]
  | none => simp [formMeaning]

/-- A short register address from F0h up means the bank register it names. -/
theorem formMeaning_regForm_of_ge {x : UInt8} (hx : ¬ x < 0xF0) (w : Width) :
    formMeaning (regForm x w extended) = .text (regName x w extended) := by
  by_cases hw : w = .byte <;>
    simp [regForm, regName, UInt8.not_lt.mp hx, hw, formMeaning, Register.render]

/-- A decoded short register operand means its form's meaning. -/
theorem slotMeaning_reg_eq {s : Slot} (fs : Fields) (hk : s.kind = .regW ∨ s.kind = .regB) :
    slotMeaning s fs extended = formMeaning (operandForm s fs extended) := by
  have hform : operandForm s fs extended = regForm (fs.uint s.field).toUInt8
      (if s.kind = .regB then .byte else .word) extended := by
    rcases hk with hk | hk <;> simp [operandForm, hk]
  have hop : operand s fs extended = regName (fs.uint s.field).toUInt8
      (if s.kind = .regB then .byte else .word) extended := by
    rcases hk with hk | hk <;> simp [operand, hk]
  rw [hform]
  by_cases hx : (fs.uint s.field).toUInt8 < 0xF0
  · obtain ⟨a, ha, -⟩ := ShortAddress.regShort?_regAddress? hx extended
    rw [slotMeaning_reg hk ha, formMeaning_regForm_of_lt hx ha]
  · rw [slotMeaning_bank hk (ShortAddress.regAddress?_of_ge hx extended), hop,
      formMeaning_regForm_of_ge hx]

/-- **A decoded register or memory operand means its form's meaning.** -/
theorem slotMeaning_registerOrMemory {s : Slot} (fs : Fields)
    (hk : s.kind.isRegisterOrMemory = true) :
    slotMeaning s fs extended = formMeaning (operandForm s fs extended) := by
  obtain ⟨kind, field, aux⟩ := s
  cases kind <;> simp only [SlotKind.isRegisterOrMemory, Bool.false_eq_true] at hk
  case mem => simp [slotMeaning_mem, operandForm, formMeaning]
  case regW | regB => exact slotMeaning_reg_eq fs (by simp)
  case rw | rb =>
    rw [slotMeaning_text (by simp)]
    simp [operand, operandForm, formMeaning, Register.render, Register.wordName_mod,
      Register.byteName_mod]

end Render

/-! ## §6. Short literal slots -/

/-- The kinds whose operand is a literal of two hex digits, or the indirect register that
`#data3/[Rw]` also takes. -/
def SlotKind.isShortLiteral : SlotKind → Bool
  | .data3OrInd | .data4 | .data8 | .mask8 | .trap => true
  | _ => false

namespace Select

open Render

variable {c : Context} {mn : String} {len : Nat}

/-- **A short literal slot reads a bound operand as the operand's meaning.** -/
theorem slotMeaning_bindSlot_shortLiteral {s : Slot} {o : Operand}
    (hk : s.kind.isShortLiteral = true) (hkf : kindFits s.kind o = true)
    (hr : rangeFits c mn len s.kind o = true) :
    slotMeaning s (bindSlot c mn len .empty s o) c.extended = formMeaning o.form := by
  obtain ⟨kind, field, aux⟩ := s
  obtain ⟨f, raw⟩ := o
  cases kind <;> simp only [SlotKind.isShortLiteral, Bool.false_eq_true] at hk
  all_goals rw [slotMeaning_text (by simp)]
  case data3OrInd =>
    -- the mode tag says which of the three forms was bound
    cases f <;> simp [kindFits] at hkf <;> simp [rangeFits, within, Operand.value] at hr <;>
      simp (disch := omega) [bindSlot, operand, data3OrInd, Fields.text, Fields.uint,
        Fields.setText, Fields.setUInt, Mode.data3, Mode.reg, Mode.regInc, Value.asUInt,
        Value.asText, formMeaning, Nat.mod_eq_of_lt]
  all_goals
    cases f <;> simp [kindFits] at hkf
    rename_i v w
    simp [rangeFits, within, Operand.value, Operand.wide] at hr
    have hv : (word32 (v : Int)).toNat = v := by
      rw [toNat_word32 (by omega) (by omega)]
      simp
    simp [bindSlot, operand, formMeaning, Operand.value, hv]

end Select

namespace Render

/-- **A decoded short literal operand means its form's meaning.** -/
theorem slotMeaning_shortLiteral {s : Slot} (fs : Fields) (extended : Bool)
    (hk : s.kind.isShortLiteral = true) :
    slotMeaning s fs extended = formMeaning (operandForm s fs extended) := by
  obtain ⟨kind, field, aux⟩ := s
  cases kind <;> simp only [SlotKind.isShortLiteral, Bool.false_eq_true] at hk
  all_goals rw [slotMeaning_text (by simp)]
  case data3OrInd =>
    simp only [operand, operandForm, data3OrInd, data3OrIndForm]
    split_ifs <;> simp [formMeaning, Register.wordName_mod]
  all_goals simp [operand, operandForm, formMeaning]

end Render

/-! ## §7. The other slots -/

/-- What the fields of slot `s` hold once decoded, for mnemonic `mn`: numbers within the
slot kind's bounds, a displacement that fits a signed byte, a page exactly when the mnemonic
takes one and within its bits, an ext range from 1, and a known mode tag with its number or
register. -/
def Slot.Decoded (s : Slot) (mn : String) (fs : Fields) : Prop :=
  (∀ b ∈ s.kind.bound, fs.uint s.field ≤ b) ∧
  (∀ a ∈ s.aux, ∀ b ∈ s.kind.auxBound, fs.uint a ≤ b) ∧
  match s.kind with
  | .rel => -128 ≤ fs.int s.field ∧ fs.int s.field ≤ 127
  | .pageSeg => fs.has .page0 = isPageMnemonic mn ∧
      if isPageMnemonic mn then fs.uint .page0 ≤ 0x3FF else fs.uint .segment0 ≤ 0xFF
  | .irange => 1 ≤ fs.uint s.field
  | .data3OrInd =>
    fs.text .mode0 = Mode.data3 ∧ fs.uint .data0 ≤ 7 ∨
      (fs.text .mode0 = Mode.reg ∨ fs.text .mode0 = Mode.regInc) ∧ fs.uint .register1 ≤ 3
  | _ => True

/-- A 32-bit number written as a whole number is bound back to itself. -/
theorem Select.word32_toNat (x : UInt32) : Select.word32 (x.toNat : Int) = x := by
  apply UInt32.toNat_inj.mp
  rw [Select.toNat_word32 (by omega) (by have := x.toNat_lt; omega)]
  simp

/-- A 16-bit code address keeps its bits under the address mask. -/
theorem UInt32.and_ffff_of_le {x : UInt32} (h : x ≤ 0xFFFF) : x &&& 0xFFFF = x := by
  apply UInt32.toNat_inj.mp
  rw [UInt32.le_iff_toNat_le] at h
  have hm : x.toNat &&& 65535 = x.toNat % 65536 := Nat.and_two_pow_sub_one_eq_mod x.toNat 16
  simp only [UInt32.toNat_and]
  simp at h ⊢
  omega

/-- The low byte of a 32-bit number, read through its value. -/
theorem UInt32.ofNat_toNat_mod (x : UInt32) : UInt8.ofNat (x.toNat % 256) = x.toUInt8 := by
  apply UInt8.toNat_inj.mp
  simp

@[simp] theorem Condition.ofNat_code (c : Condition) : Condition.ofNat c.code.val = c := by
  simp [Condition.ofNat, Nat.mod_eq_of_lt c.code.isLt]

theorem ShortAddress.bitSpace_general {s : UInt8} (h : bitSpace s = .general) : ¬ s < 0xF0 := by
  unfold bitSpace at h
  split at h
  · cases h
  · split at h
    · cases h
    · assumption

namespace Render

/-- The word of a bit short address has that short address again, as the word of a bit and as
a whole word. -/
theorem bitShort?_bitWord (x : UInt8) (extended : Bool) (b : Fin 16) (raw : String) :
    Select.bitAddrShort? ⟨.bitAddr (bitWord x extended) b, raw⟩ extended = some x ∧
      Select.bitoffShort? ⟨bitWordForm (bitWord x extended), raw⟩ extended = some x := by
  unfold bitWord
  cases hsp : ShortAddress.bitSpace x with
  | general =>
    -- a bank register from F0h up is F0h and its number
    have hge := ShortAddress.bitSpace_general hsp
    have hn := Register.bankShort_toNat (Fin.ofNat 16 x.toNat)
    have hx : ((240 : UInt8) ||| UInt8.ofNat (x.toNat % 16)) = x := by
      rw [UInt8.lt_iff_toNat_lt] at hge
      have := x.toNat_lt
      apply UInt8.toNat_inj.mp
      simp at hn hge ⊢
      omega
    simp [Select.bitAddrShort?, Select.bitoffShort?, bitWordForm, hx]
  | ram =>
    obtain ⟨a, ha, hshort⟩ :=
      ShortAddress.bitShort?_bitAddress? (ShortAddress.bitSpace_ram hsp).2 extended
    have hle : a.toNat ≤ 0xFFFF := by have := a.toNat_lt; omega
    simp [ha, Select.bitAddrShort?, Select.bitoffShort?, bitWordForm, hshort, hle]
  | sfr =>
    obtain ⟨a, ha, hshort⟩ :=
      ShortAddress.bitShort?_bitAddress? (ShortAddress.bitSpace_sfr hsp).2 extended
    have hle : a.toNat ≤ 0xFFFF := by have := a.toNat_lt; omega
    cases hat : SpecialRegister.atAddress? a with
    | some r =>
      have hr := (SpecialRegister.atAddress?_spec hat).2
      simp [ha, hat, Select.bitAddrShort?, Select.bitoffShort?, bitWordForm, Register.address,
        hr, hshort]
    | none => simp [ha, hat, Select.bitAddrShort?, Select.bitoffShort?, bitWordForm, hshort, hle]

variable {c : Context} {mn : String} {len : Nat}

/-- **Any other slot reads its own operand back as the same text**: binding the operand
written for slot `s` into a slot `s'` of the same kind writes the text of `s` again. -/
theorem operand_rebind {s s' : Slot} {fs : Fields} (hk : s'.kind = s.kind)
    (hg : s.kind.isRegisterOrMemory = false ∧ s.kind.isShortLiteral = false)
    (hdec : s.Decoded mn fs) (hs' : s'.aux ≠ some s'.field)
    (haux : s'.kind = .indOff ∨ s'.kind = .bitAddr → s'.aux.isSome) :
    operand s' (Select.bindSlot c mn len .empty s' (slotOperand s fs c.extended)) c.extended =
      operand s fs c.extended := by
  obtain ⟨kind, field, aux⟩ := s
  obtain ⟨kind', field', aux'⟩ := s'
  simp only at hk hs' haux
  obtain rfl : kind' = kind := hk
  obtain ⟨hb, hab, hx⟩ := hdec
  cases kind' <;> simp [SlotKind.isRegisterOrMemory, SlotKind.isShortLiteral] at hg
  all_goals simp only [slotOperand, operandForm, Select.bindSlot, operand]
  case ind | postInc | preDec =>
    simp (disch := omega) [Operand.regNum, Operand.register?, Register.num, Nat.mod_eq_of_lt,
      Register.wordName_mod]
  case indOff =>
    obtain ⟨a', rfl⟩ := Option.isSome_iff_exists.mp (haux (.inl rfl))
    have hne : field' ≠ a' := fun h => hs' (by rw [h])
    simp (disch := omega) [hne, Fields.setUInt, Fields.uint, Operand.regNum,
      Operand.register?, Operand.value, Register.num, Nat.mod_eq_of_lt, Register.wordName_mod,
      Select.word32_toNat]
  case data16 | seg | irange => simp [Operand.value, Select.word32_toNat]
  case caddr => simp [Operand.value, Select.word32_toNat, UInt32.and_ffff_of_le (hb 65535 rfl)]
  case pageSeg =>
    have hp := hx.1
    by_cases hq : fs.has .page0 = true <;>
      simp [hq, ← hp, Operand.value, Select.word32_toNat]
  case cond =>
    simp (disch := omega) [Operand.condition, Nat.mod_eq_of_lt]
  case rel =>
    simp [Select.displacement?, Fields.setInt, Fields.int, Value.asInt]
  case bitoff =>
    simp [(bitShort?_bitWord _ _ 0 _).2, UInt32.ofNat_toNat_mod]
  case bitAddr =>
    obtain ⟨a', rfl⟩ := Option.isSome_iff_exists.mp (haux (.inr rfl))
    have hne : field' ≠ a' := fun h => hs' (by rw [h])
    -- the bit number was decoded below 16, so it is written back as it was read
    have hbit : ((aux.map fs.uint).getD 0).toNat < 16 := by
      cases aux with
      | none => simp
      | some a =>
        have h15 := UInt32.le_iff_toNat_le.mp (hab a rfl 15 rfl)
        simp at h15 ⊢
        omega
    simp only [(bitShort?_bitWord _ _ _ _).1, Option.getD_some, Fields.uint_setUInt, hne, if_true,
      if_false]
    simp (disch := omega) [Operand.bit, Nat.mod_eq_of_lt, UInt32.ofNat_toNat_mod]

end Render

/-! ## §8. The main statement -/

/-- Two slot kinds of one class: one kind, two register or memory kinds, or two short literal
kinds. -/
def SlotKind.sameClass (k k' : SlotKind) : Bool :=
  k == k' || k.isRegisterOrMemory && k'.isRegisterOrMemory || k.isShortLiteral && k'.isShortLiteral

namespace Render

variable {c : Context} {mn : String} {len : Nat}

/-- **Rebinding keeps the meaning.** Binding the operand written for slot `s`, whose fields are
as decoding leaves them, into a slot `s'` of the same class whose kind, width and range rules
accept it gives fields under which `s'` means what `s` meant. -/
theorem slotMeaning_rebind {s s' : Slot} {fs : Fields} (hclass : s.kind.sameClass s'.kind = true)
    (hdec : s.Decoded mn fs) (hs' : s'.aux ≠ some s'.field)
    (haux : s'.kind = .indOff ∨ s'.kind = .bitAddr → s'.aux.isSome)
    (hkf : Select.kindFits s'.kind (slotOperand s fs c.extended) = true)
    (hw : Select.widthFits s'.kind (slotOperand s fs c.extended) = true)
    (hr : Select.rangeFits c mn len s'.kind (slotOperand s fs c.extended) = true) :
    slotMeaning s' (Select.bindSlot c mn len .empty s' (slotOperand s fs c.extended))
      c.extended = slotMeaning s fs c.extended := by
  by_cases hrm : s.kind.isRegisterOrMemory = true ∧ s'.kind.isRegisterOrMemory = true
  · rw [Select.slotMeaning_bindSlot_registerOrMemory hrm.2 hkf hw hr,
      slotMeaning_registerOrMemory fs hrm.1]
    rfl
  by_cases hsl : s.kind.isShortLiteral = true ∧ s'.kind.isShortLiteral = true
  · rw [Select.slotMeaning_bindSlot_shortLiteral hsl.2 hkf hr, slotMeaning_shortLiteral fs _ hsl.1]
    rfl
  -- outside both classes the two kinds are one
  have hk : s'.kind = s.kind := by
    simp only [SlotKind.sameClass, Bool.or_eq_true, Bool.and_eq_true, beq_iff_eq] at hclass
    rcases hclass with (h | h) | h
    · exact h.symm
    · exact absurd h hrm
    · exact absurd h hsl
  have hg : s.kind.isRegisterOrMemory = false ∧ s.kind.isShortLiteral = false := by
    rw [hk] at hrm hsl
    simp only [and_self, Bool.not_eq_true] at hrm hsl
    exact ⟨hrm, hsl⟩
  have hnot : s.kind ≠ .regW ∧ s.kind ≠ .regB ∧ s.kind ≠ .mem := by
    refine ⟨fun h => ?_, fun h => ?_, fun h => ?_⟩ <;> simp [h, SlotKind.isRegisterOrMemory] at hg
  rw [slotMeaning_text (hk ▸ hnot), slotMeaning_text hnot, operand_rebind hk hg hdec hs' haux]

end Render

end C166Codec
