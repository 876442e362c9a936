import C166Codec.Proofs.LabelTargets
/-!
# What selection chooses is encoded, and decodes back

`select` takes the first opcode of a mnemonic whose rules accept the operands and binds the
operands to that opcode's fields. The rules are written apart from the layout encoders, which
make checks of their own (`Layout.needs`). This module shows that the rules are strong enough:
binding operands that pass them meets every need of the chosen opcode's layout.

* Binding an accepted operand to a slot bounds the fields the slot writes (`Slot.Ensures`,
  `Select.ensures_bindSlot`). No two slots of a shape write one field, so every slot's bound
  holds of the whole binding (`Select.ensures_bind`).
* Every need of an opcode's layout is met by one of its slots, or by its sub-opcode table,
  whose mnemonic binding writes as given (`Descriptor.meets_needs`, checked over the table).
  So operands that an opcode of the mnemonic accepts are encoded (`Select.encode_ok_of_accepts`),
  and the bytes decode to that mnemonic (`Select.mnemonic_of_agrees`).

Main statement, `select_encodes_and_decodes`: when selection picks opcode `d` with fields `fs`,
in any context, `d` is an opcode of the lowered mnemonic with one slot per operand, its layout
encodes `fs`, so `encodeIn` never fails in the layout, and the bytes decode at every address
to `d` with the lowered mnemonic and with fields that agree with `fs` wherever the layout
stores one.
-/

namespace C166Codec

/-! ## §1. Numbers that fit their fields -/

namespace Fields

/-- A set unsigned number within the bound is within it. -/
theorem within_setUInt {fs : Fields} {f : Field} {n max : UInt32} (h : n ≤ max) :
    (fs.setUInt f n).Within f max :=
  ⟨.uint n, by simp [setUInt], by simp [Value.isSigned], h⟩

theorem within_congr {fs fs' : Fields} {f : Field} {max : UInt32} (h : fs.get? f = fs'.get? f) :
    fs.Within f max ↔ fs'.Within f max := by
  simp [Within, h]

/-- Setting another field keeps a bound. -/
theorem within_setUInt_of_ne {fs : Fields} {f g : Field} {n max : UInt32} (hne : f ≠ g)
    (h : fs.Within f max) : (fs.setUInt g n).Within f max :=
  (within_congr (by simp [setUInt, hne])).mpr h

theorem Within.mono {fs : Fields} {f : Field} {a b : UInt32} (h : fs.Within f a) (hab : a ≤ b) :
    fs.Within f b := by
  obtain ⟨v, hv, hs, hle⟩ := h
  exact ⟨v, hv, hs, UInt32.le_trans hle hab⟩

end Fields

theorem Register.num_lt (r : Register) : r.num < 16 := by
  cases r <;> simp [Register.num]

theorem Operand.regNum_lt (o : Operand) : o.regNum < 16 := by
  unfold Operand.regNum
  cases o.register? with
  | none => simp
  | some r => simpa using r.num_lt

theorem Operand.bit_lt (o : Operand) : o.bit < 16 := by
  unfold Operand.bit
  split
  · rename_i b _; exact b.isLt
  · omega

theorem Nat.toUInt32_le {n : Nat} {m : UInt32} (h : n ≤ m.toNat) : n.toUInt32 ≤ m := by
  rw [UInt32.le_iff_toNat_le]; simp; omega

namespace Select

/-- A number in `0 .. 2^32 - 1` is written as itself. -/
theorem toNat_word32 {i : Int} (h0 : 0 ≤ i) (h : i < 2 ^ 32) : (word32 i).toNat = i.toNat := by
  simp [word32]; omega

theorem toUInt32_byte_le (x : UInt8) : x.toUInt32 ≤ 255 := by
  rw [UInt32.le_iff_toNat_le]; simp; have := x.toNat_lt; omega

theorem toUInt32_word_le (x : UInt16) : x.toUInt32 ≤ 65535 := by
  rw [UInt32.le_iff_toNat_le]; simp; have := x.toNat_lt; omega

/-- A displacement in `-128..127` keeps its value as a signed 32-bit number. -/
theorem toInt32_bounds {r : Int} (h1 : -128 ≤ r) (h2 : r ≤ 127) :
    -128 ≤ r.toInt32 ∧ r.toInt32 ≤ 127 := by
  have hb : r.bmod Int32.size = r := by
    unfold Int.bmod; simp only [Int32.size]; split <;> omega
  constructor
  · rw [Int32.le_iff_toInt_le]; simp [Int.toInt32, hb]; omega
  · rw [Int32.le_iff_toInt_le]; simp [Int.toInt32, hb]; omega

end Select

/-! ## §2. What binding one operand guarantees -/

namespace SlotKind

/-- The largest number that binding an accepted operand writes into a slot's field, for the
kinds whose field holds a plain number. -/
def bound : SlotKind → Option UInt32
  | .rw | .rb | .ind | .postInc | .preDec | .indOff | .data4 | .cond => some 15
  | .regW | .regB | .bitoff | .bitAddr | .data8 | .mask8 | .seg => some 255
  | .mem | .data16 | .caddr => some 65535
  | .trap => some 127
  | .irange => some 4
  | .data3OrInd | .pageSeg | .rel => none

/-- The largest number written into a slot's second field: an offset or a bit number. -/
def auxBound : SlotKind → Option UInt32
  | .indOff => some 65535
  | .bitAddr => some 15
  | _ => none

end SlotKind

/-- What binding an accepted operand to slot `s` makes true of the fields `s` writes. -/
def Slot.Ensures (s : Slot) (mn : String) (fs : Fields) : Prop :=
  (∀ b ∈ s.kind.bound, fs.Within s.field b) ∧
  (∀ a ∈ s.aux, ∀ b ∈ s.kind.auxBound, fs.Within a b) ∧
  match s.kind with
  | .data3OrInd =>
    fs.text .mode0 = Mode.data3 ∧ fs.Within .data0 7 ∨
      (fs.text .mode0 = Mode.reg ∨ fs.text .mode0 = Mode.regInc) ∧ fs.Within .register1 3
  | .irange => 1 ≤ fs.uint s.field
  | .pageSeg => if isPageMnemonic mn then fs.Within .page0 0x3FF else fs.Within .segment0 0xFF
  | .rel => ∃ v, fs.get? s.field = some v ∧ -128 ≤ v.asInt ∧ v.asInt ≤ 127
  | _ => True

namespace Select

variable {c : Context} {mn : String} {len : Nat} {o : Operand}

/-- Binding an operand that the kind, range and index rules accept meets the slot's guarantee,
whatever the fields before. -/
theorem ensures_bindSlot {s : Slot} (hs : s.aux ≠ some s.field) (hk : kindFits s.kind o = true)
    (hr : rangeFits c mn len s.kind o = true) (hi : indexFits s.kind o = true) (fs : Fields) :
    s.Ensures mn (bindSlot c mn len fs s o) := by
  obtain ⟨kind, field, aux⟩ := s
  simp only at hs hk hr hi
  cases kind
  all_goals simp only [Slot.Ensures, bindSlot, SlotKind.bound, SlotKind.auxBound, Option.mem_def,
    Option.some.injEq, forall_eq', reduceCtorEq, false_implies, implies_true, and_true, true_and]
  -- a bank register number
  case rw | rb | ind | postInc | preDec =>
    exact Fields.within_setUInt (Nat.toUInt32_le (by have := o.regNum_lt; simp; omega))
  -- a short address or a 16-bit address, in range by its type
  case regW | regB | bitoff => exact Fields.within_setUInt (toUInt32_byte_le _)
  case mem => exact Fields.within_setUInt (toUInt32_word_le _)
  case cond => exact Fields.within_setUInt (Nat.toUInt32_le (by have := o.condition.code.isLt; simp; omega))
  case caddr =>
    refine Fields.within_setUInt ?_
    rw [UInt32.le_iff_toNat_le]; simp; exact Nat.and_le_right
  -- a number that the range rule bounds
  case data4 | data8 | data16 | mask8 | trap | seg =>
    simp only [rangeFits, within, Bool.and_eq_true, decide_eq_true_eq, Bool.not_eq_true'] at hr
    refine Fields.within_setUInt ?_
    rw [UInt32.le_iff_toNat_le, toNat_word32 (by omega) (by omega)]
    simp; omega
  case irange =>
    simp only [rangeFits, within, Bool.and_eq_true, decide_eq_true_eq] at hr
    have hw : (word32 o.value).toNat = o.value.toNat := toNat_word32 (by omega) (by omega)
    refine ⟨Fields.within_setUInt ?_, ?_⟩
    · rw [UInt32.le_iff_toNat_le, hw]; simp; omega
    · rw [Fields.uint_set_uint, UInt32.le_iff_toNat_le, hw]; simp; omega
  -- a register and an offset, or a short address and a bit number, in two fields
  case indOff =>
    simp only [rangeFits, within, Bool.and_eq_true, decide_eq_true_eq] at hr
    have hreg : o.regNum.toUInt32 ≤ 15 := Nat.toUInt32_le (by have := o.regNum_lt; simp; omega)
    cases aux with
    | none => simpa using Fields.within_setUInt hreg
    | some a =>
      have ha : field ≠ a := fun h => hs (by rw [h])
      simp only [Option.some.injEq, forall_eq']
      refine ⟨Fields.within_setUInt_of_ne ha (Fields.within_setUInt hreg), ?_⟩
      refine Fields.within_setUInt ?_
      rw [UInt32.le_iff_toNat_le, toNat_word32 (by omega) (by omega)]
      simp; omega
  case bitAddr =>
    have hbit : o.bit.toUInt32 ≤ 15 := Nat.toUInt32_le (by have := o.bit_lt; simp; omega)
    cases aux with
    | none => simpa using Fields.within_setUInt (toUInt32_byte_le _)
    | some a =>
      have ha : field ≠ a := fun h => hs (by rw [h])
      simp only [Option.some.injEq, forall_eq']
      exact ⟨Fields.within_setUInt_of_ne ha (Fields.within_setUInt (toUInt32_byte_le _)),
        Fields.within_setUInt hbit⟩
  -- the mode and its number or register
  case data3OrInd =>
    cases hf : o.form <;> simp only [kindFits, hf, reduceCtorEq] at hk
    case immediate v w =>
      simp only [rangeFits, hf, Operand.value, within, Bool.and_eq_true, decide_eq_true_eq] at hr
      refine .inl ⟨by simp [Fields.text, Fields.setUInt, Fields.setText], Fields.within_setUInt ?_⟩
      exact Nat.toUInt32_le (by simp; omega)
    case indirect r =>
      simp only [indexFits, hf, Operand.regNum, Operand.register?, Option.map_some,
        Option.getD_some, Register.num, decide_eq_true_eq] at hi
      refine .inr ⟨.inl (by simp [Fields.text, Fields.setUInt, Fields.setText]),
        Fields.within_setUInt (Nat.toUInt32_le (by simp; omega))⟩
    case postInc r =>
      simp only [indexFits, hf, Operand.regNum, Operand.register?, Option.map_some,
        Option.getD_some, Register.num, decide_eq_true_eq] at hi
      refine .inr ⟨.inr (by simp [Fields.text, Fields.setUInt, Fields.setText]),
        Fields.within_setUInt (Nat.toUInt32_le (by simp; omega))⟩
  -- a page or a segment, as the mnemonic asks
  case pageSeg =>
    cases hp : isPageMnemonic mn <;>
      simp only [rangeFits, hp, within, Bool.and_eq_true, decide_eq_true_eq, if_true, if_false,
        Bool.false_eq_true] at hr ⊢ <;>
      refine Fields.within_setUInt ?_ <;>
      rw [UInt32.le_iff_toNat_le, toNat_word32 (by omega) (by omega)] <;> simp <;> omega
  -- a displacement that fits a signed byte
  case rel =>
    cases hd : displacement? o c len with
    | none => simp [rangeFits, hd] at hr
    | some r =>
      simp only [rangeFits, hd, within, Bool.and_eq_true, decide_eq_true_eq] at hr
      exact ⟨.int r.toInt32, by simp [Fields.setInt], toInt32_bounds hr.1 hr.2⟩

end Select

namespace Slot

/-- A slot's guarantee reads only fields the slot writes. -/
theorem ensures_congr {s : Slot} {mn : String} {fs fs' : Fields}
    (h : ∀ f ∈ s.writes, fs.get? f = fs'.get? f) (he : s.Ensures mn fs) : s.Ensures mn fs' := by
  obtain ⟨kind, field, aux⟩ := s
  obtain ⟨hb, ha, hx⟩ := he
  have hf : fs.get? field = fs'.get? field := h field (by simp [writes])
  refine ⟨fun b hb' => (Fields.within_congr hf).mp (hb b hb'),
    fun a hax b hb' => (Fields.within_congr (h a (by simp_all [writes]))).mp (ha a hax b hb'), ?_⟩
  cases kind <;> simp only at hx ⊢
  case data3OrInd =>
    have ht : fs.text .mode0 = fs'.text .mode0 := by simp [Fields.text, h .mode0 (by simp [writes])]
    rwa [← ht, ← Fields.within_congr (h .data0 (by simp [writes])),
      ← Fields.within_congr (h .register1 (by simp [writes]))]
  case irange => rwa [Fields.uint, ← hf]
  case pageSeg =>
    rwa [← Fields.within_congr (h .page0 (by simp [writes])),
      ← Fields.within_congr (h .segment0 (by simp [writes]))]
  case rel => rwa [← hf]

end Slot

/-! ## §3. Binding every operand -/

namespace Shape

/-- No two slots of a shape write one field. -/
theorem writes_pairwise (sh : Shape) :
    sh.slots.Pairwise fun s t => ∀ f ∈ s.writes, f ∉ t.writes := by
  cases sh <;> decide

/-- A slot's second field is not its first. -/
theorem aux_ne_field (sh : Shape) : ∀ s ∈ sh.slots, s.aux ≠ some s.field := by
  cases sh <;> decide

/-- No slot writes the mnemonic. -/
theorem mnemonic_not_mem_writes (sh : Shape) : ∀ s ∈ sh.slots, Field.mnemonic ∉ s.writes := by
  cases sh <;> decide

end Shape

namespace Select

variable {c : Context} {mn : String} {len : Nat}

/-- Binding operands to slots that write pairwise different fields: every slot's guarantee
holds at the end, since the slots after it leave its fields alone. -/
theorem ensures_foldl {ps : List (Slot × Operand)}
    (hacc : ∀ p ∈ ps, p.1.aux ≠ some p.1.field ∧ kindFits p.1.kind p.2 = true ∧
      rangeFits c mn len p.1.kind p.2 = true ∧ indexFits p.1.kind p.2 = true)
    (hdis : ps.Pairwise fun p q => ∀ f ∈ p.1.writes, f ∉ q.1.writes) (fs : Fields) :
    ∀ p ∈ ps, p.1.Ensures mn (ps.foldl (fun fs p => bindSlot c mn len fs p.1 p.2) fs) := by
  induction ps generalizing fs with
  | nil => intro p hp; cases hp
  | cons p ps ih =>
    rw [List.pairwise_cons] at hdis
    intro q hq
    rw [List.foldl_cons]
    rcases List.mem_cons.mp hq with rfl | hq
    · obtain ⟨hs, hk, hr, hi⟩ := hacc q List.mem_cons_self
      refine Slot.ensures_congr (fun f hf => ?_) (ensures_bindSlot hs hk hr hi fs)
      exact (foldl_bindSlot_get? (fun r hr => hdis.1 r hr f hf) _).symm
    · exact ih (fun r hr => hacc r (List.mem_cons_of_mem _ hr)) hdis.2 _ q hq

/-- Binding operands that every rule of opcode `d` accepts bounds the fields of every slot. -/
theorem ensures_bind {d : Descriptor} {ops : List Operand} (h : accepts d ops c mn = true) :
    ∀ s ∈ d.shape.slots, s.Ensures mn (bind d ops c mn) := by
  simp only [accepts, List.all_eq_true] at h
  have hcount := h .count (by simp [Rule.all])
  have hkind := h .kind (by simp [Rule.all])
  have hrange := h .range (by simp [Rule.all])
  have hindex := h .index (by simp [Rule.all])
  simp only [Rule.check, List.all_eq_true, Shape.arity] at hcount hkind hrange hindex
  have hlen : d.shape.slots.length = ops.length := of_decide_eq_true hcount
  have hdis : (d.shape.slots.zip ops).Pairwise fun p q => ∀ f ∈ p.1.writes, f ∉ q.1.writes := by
    have hw := d.shape.writes_pairwise
    rw [← List.map_fst_zip (Nat.le_of_eq hlen)] at hw
    exact List.pairwise_map.mp hw
  intro s hs
  obtain ⟨j, hj, rfl⟩ := List.getElem_of_mem hs
  have hmem : (d.shape.slots[j], ops[j]) ∈ d.shape.slots.zip ops :=
    List.mem_iff_getElem.mpr ⟨j, by simp [hj, ← hlen], by simp⟩
  refine ensures_foldl (fun p hp => ⟨?_, hkind p hp, hrange p hp, hindex p hp⟩) hdis _ _ hmem
  exact d.shape.aux_ne_field p.1 (List.of_mem_zip hp).1

/-- A sub-opcode layout's binding carries the mnemonic as it is given. -/
theorem bind_get?_mnemonic {d : Descriptor} {ops : List Operand} {c : Context} {mn : String}
    (h : d.layout.subTable.isSome) : (bind d ops c mn).get? .mnemonic = some (.text mn) := by
  unfold bind
  rw [foldl_bindSlot_get? (fun p hp => d.shape.mnemonic_not_mem_writes p.1 (List.of_mem_zip hp).1)]
  simp [h, Fields.setText]

end Select

/-! ## §4. Every need of the chosen layout -/

namespace Slot

/-- Whether binding to `s` bounds field `f` by `max`, through its field or its second field. -/
def bounds (s : Slot) (f : Field) (max : UInt32) : Bool :=
  (s.field == f && s.kind.bound.any (· ≤ max)) || (s.aux == some f && s.kind.auxBound.any (· ≤ max))

/-- Whether binding to `s` meets need `n` by itself. -/
def meets (s : Slot) : Layout.Need → Bool
  | .atMost f max => s.bounds f max
  | .embedded f => s.bounds f 15
  | .displacement => s.kind == .rel && s.field == .relative0
  | .mode => s.kind == .data3OrInd
  | .range => s.kind == .irange && s.field == .irange0
  | .pageOrSegment => s.kind == .pageSeg
  | .sub _ => false

theorem within_of_bounds {s : Slot} {mn : String} {fs : Fields} {f : Field} {max : UInt32}
    (he : s.Ensures mn fs) (hb : s.bounds f max = true) : fs.Within f max := by
  obtain ⟨hf, ha, -⟩ := he
  simp only [bounds, Bool.or_eq_true, Bool.and_eq_true, beq_iff_eq, Option.any_eq_true] at hb
  rcases hb with ⟨rfl, b, hb, hle⟩ | ⟨hax, b, hb, hle⟩
  · exact (hf b hb).mono (of_decide_eq_true hle)
  · exact (ha f hax b hb).mono (of_decide_eq_true hle)

end Slot

namespace Layout

theorem embedded_of_mem_needs {l : Layout} {f : Field} (h : Need.embedded f ∈ l.needs) :
    l.embedded = some f := by
  cases l <;> simp [needs, embedded] at h ⊢ <;> exact h.symm

end Layout

namespace Descriptor

/-- Whether opcode `d` meets need `n` of its layout: through one of its slots, or, for the
sub-opcode and the page or segment, through its layout's sub-opcode table, since binding
writes the mnemonic into such a layout's fields. -/
def meets (d : Descriptor) : Layout.Need → Bool
  | .sub t => d.layout.subTable == some t
  | .pageOrSegment => d.layout.subTable.isSome && d.shape.slots.any (·.meets .pageOrSegment)
  | n => d.shape.slots.any (·.meets n)

set_option maxRecDepth 100000 in
/-- Every need of every opcode's layout is met by the opcode's slots or sub-opcode table. -/
theorem meets_needs : ∀ d ∈ Descriptor.all, ∀ n ∈ d.layout.needs, d.meets n = true := by
  decide

variable {d : Descriptor} {mn : String} {g : Fields}

theorem select?_isSome_of_mem {t : SubTable} (h : mn ∈ t.mnemonics) : (t.select? mn).isSome := by
  obtain ⟨i, -, hi⟩ := List.mem_filterMap.mp h
  simp [SubTable.select?_of_entry hi]

/-- A need that `d` meets holds of fields in which every slot's guarantee holds, the mnemonic
of a sub-opcode layout is one of its table, and the embedded field equals the opcode's high
nibble. -/
theorem holds_of_meets (hens : ∀ s ∈ d.shape.slots, s.Ensures mn g)
    (hsub : ∀ t, d.layout.subTable = some t → g.text .mnemonic = mn ∧ mn ∈ t.mnemonics)
    (hemb : ∀ f, d.layout.embedded = some f → g.uint f = (d.opcode >>> 4).toUInt32)
    {n : Layout.Need} (hn : n ∈ d.layout.needs) (hm : d.meets n = true) :
    n.Holds d.opcode g := by
  cases n with
  | atMost f max =>
    obtain ⟨s, hs, hb⟩ := List.any_eq_true.mp hm
    exact Slot.within_of_bounds (hens s hs) hb
  | embedded f =>
    obtain ⟨s, hs, hb⟩ := List.any_eq_true.mp hm
    exact ⟨Slot.within_of_bounds (hens s hs) hb, hemb f (Layout.embedded_of_mem_needs hn)⟩
  | displacement =>
    obtain ⟨s, hs, hb⟩ := List.any_eq_true.mp hm
    simp only [Slot.meets, Bool.and_eq_true, beq_iff_eq] at hb
    obtain ⟨-, -, hx⟩ := hens s hs
    simpa [Layout.Need.Holds, hb.1, hb.2] using hx
  | mode =>
    obtain ⟨s, hs, hb⟩ := List.any_eq_true.mp hm
    simp only [Slot.meets, beq_iff_eq] at hb
    obtain ⟨-, -, hx⟩ := hens s hs
    simpa [Layout.Need.Holds, hb] using hx
  | range =>
    obtain ⟨s, hs, hb⟩ := List.any_eq_true.mp hm
    simp only [Slot.meets, Bool.and_eq_true, beq_iff_eq] at hb
    obtain ⟨hf, -, hx⟩ := hens s hs
    obtain ⟨v, hv, -, h4⟩ := hf 4 (by simp [hb.1, SlotKind.bound])
    simp only [hb.1, hb.2] at hx hv
    exact ⟨v, hv, by simpa [Fields.uint, hv] using hx, h4⟩
  | pageOrSegment =>
    simp only [meets, Bool.and_eq_true, Option.isSome_iff_exists] at hm
    obtain ⟨⟨t, ht⟩, hany⟩ := hm
    obtain ⟨s, hs, hb⟩ := List.any_eq_true.mp hany
    simp only [Slot.meets, beq_iff_eq] at hb
    obtain ⟨-, -, hx⟩ := hens s hs
    simp only [hb] at hx
    simpa [Layout.Need.Holds, (hsub t ht).1] using hx
  | sub t =>
    simp only [meets, beq_iff_eq] at hm
    obtain ⟨htext, hmem⟩ := hsub t hm
    simpa [Layout.Need.Holds, htext] using select?_isSome_of_mem hmem

end Descriptor

/-! ## §5. The mnemonic that decoding reads -/

namespace Fields

theorem get?_ofList_of_not_mem {l : List (Field × Value)} {f : Field} (h : f ∉ l.map Prod.fst) :
    (ofList l).get? f = none := by
  unfold ofList
  suffices ∀ fs : Fields, fs.get? f = none → (l.foldl (fun fs p => fs.set p.1 p.2) fs).get? f = none from
    this _ rfl
  induction l with
  | nil => exact fun _ h => h
  | cons p l ih =>
    intro fs hfs
    simp only [List.map_cons, List.mem_cons, not_or] at h
    exact ih h.2 _ (by simp [get?_set, h.1, hfs])

end Fields

namespace Layout

/-- Only a sub-opcode layout decodes a mnemonic. -/
theorem decode_mnemonic {l : Layout} {code : List UInt8} {g : Fields} (hl : l.subTable = none)
    (h : l.decode code = .ok g) : g.get? .mnemonic = none := by
  unfold decode at h
  split at h
  · cases h
  · dsimp only at h
    split at h
    · cases h
    · rename_i body hbody
      cases h
      apply Fields.get?_ofList_of_not_mem
      cases l <;> simp only [subTable, reduceCtorEq] at hl <;>
        simp only [decodeBody] at hbody <;> (try split_ifs at hbody) <;> cases hbody <;>
        simp [embeddedSetting, embedded]

theorem mnemonic_mem_packs {l : Layout} (h : l.subTable.isSome) (fs : Fields) :
    Field.mnemonic ∈ l.packs fs := by
  cases l <;> simp [subTable] at h <;> simp [packs, embedded]

end Layout

/-! ## §6. The chosen opcode -/

namespace Select

variable {d : Descriptor} {ops : List Operand} {c : Context} {mn : String}

/-- The count rule, and the kind, width and range rules at every slot. -/
theorem slot_fits_of_accepts (h : accepts d ops c mn = true) :
    d.shape.slots.length = ops.length ∧
      ∀ j (hj : j < d.shape.slots.length) (hjo : j < ops.length),
        kindFits d.shape.slots[j].kind ops[j] = true ∧
          widthFits d.shape.slots[j].kind ops[j] = true ∧
          rangeFits c mn d.length d.shape.slots[j].kind ops[j] = true := by
  simp only [accepts, List.all_eq_true] at h
  have hcount := h .count (by simp [Rule.all])
  have hkind := h .kind (by simp [Rule.all])
  have hwidth := h .width (by simp [Rule.all])
  have hrange := h .range (by simp [Rule.all])
  simp only [Rule.check, List.all_eq_true, Shape.arity] at hcount hkind hwidth hrange
  refine ⟨of_decide_eq_true hcount, fun j hj hjo => ?_⟩
  have hmem : (d.shape.slots[j], ops[j]) ∈ d.shape.slots.zip ops :=
    List.mem_iff_getElem.mpr ⟨j, by simp [hj, hjo], by simp⟩
  exact ⟨hkind _ hmem, hwidth _ hmem, hrange _ hmem⟩

/-- **Operands that an opcode of the mnemonic accepts are encoded**: binding them meets every
need of the opcode's layout. -/
theorem encode_ok_of_accepts (hd : d ∈ Descriptor.byMnemonic mn) (hacc : accepts d ops c mn = true) :
    ∃ b, d.layout.encode d.opcode (bind d ops c mn) = .ok b := by
  obtain ⟨hall, hmn⟩ := mem_byMnemonic hd
  have hemb := hacc
  simp only [accepts, List.all_eq_true] at hemb
  have hemb := hemb .embedded (by simp [Rule.all])
  simp only [Rule.check] at hemb
  apply Layout.encode_ok_of_needs
  intro n hn
  refine Descriptor.holds_of_meets (ensures_bind hacc) (fun t ht => ⟨?_, ?_⟩) (fun f hf => ?_) hn
    (Descriptor.meets_needs d hall n hn)
  · -- a sub-opcode layout carries the mnemonic as given
    have hsome : d.layout.subTable.isSome = true := by simp [ht]
    simp [Fields.text, bind_get?_mnemonic hsome]
  · simpa [Descriptor.mnemonics, ht] using hmn
  · simpa [hf] using hemb

variable {b : List UInt8} {g : Fields}

/-- Decoding what a sub-opcode layout encoded gives back the mnemonic that was bound. -/
theorem text_mnemonic_of_agrees (hsub : d.layout.subTable.isSome = true)
    (hag : d.layout.Agrees (bind d ops c mn) g) : g.text .mnemonic = mn := by
  obtain ⟨v, w, hv, hw, hs⟩ := hag .mnemonic (Layout.mnemonic_mem_packs hsub _)
  rw [bind_get?_mnemonic hsub] at hw
  cases hw
  simp only [Layout.sameValue, Value.asText_text] at hs
  simp [Fields.text, hv, hs]

/-- Decoding what an opcode of the mnemonic encoded gives back the mnemonic. -/
theorem mnemonic_of_agrees (pc : UInt32) (hmn : mn ∈ d.mnemonics)
    (hdec : d.layout.decode b = .ok g) (hag : d.layout.Agrees (bind d ops c mn) g) :
    Instruction.mnemonic ⟨pc, d, b, g⟩ = mn := by
  cases ht : d.layout.subTable with
  | none =>
    -- only a sub-opcode layout decodes a mnemonic; any other has one
    have hnone := Layout.decode_mnemonic ht hdec
    simp only [Descriptor.mnemonics, ht, List.mem_singleton] at hmn
    simp [Instruction.mnemonic, Fields.has, hnone, hmn]
  | some t =>
    have hsub : d.layout.subTable.isSome = true := by simp [ht]
    have htext := text_mnemonic_of_agrees hsub hag
    have hset : g.has .mnemonic = true := by
      obtain ⟨v, w, hv, -⟩ := hag .mnemonic (Layout.mnemonic_mem_packs hsub _)
      simp [Fields.has, hv]
    simp [Instruction.mnemonic, hset, htext]

end Select

open Select in
/-- **What selection chooses is encoded, and decodes back.** When selection picks opcode `d`
with fields `fs` for mnemonic `mn` and operands `ops` in context `c`, then `d` is an opcode of
`mn` in lower case with one slot per operand; its layout encodes `fs` into bytes `b`, which is
what `encodeIn` returns; and `b` decodes at every address to `d`, with the lowered mnemonic and
with fields that agree with `fs` on every field the layout stores. -/
theorem select_encodes_and_decodes {mn : String} {ops : List Operand} {c : Context} {d : Descriptor}
    {fs : Fields} (h : select mn ops c = .ok (d, fs)) :
    d ∈ Descriptor.byMnemonic (Text.lower mn) ∧ d.shape.slots.length = ops.length ∧
      ∃ b, d.layout.encode d.opcode fs = .ok b ∧ encodeIn mn ops c = .ok b ∧
        ∀ pc, ∃ g, Instruction.decode b pc = .ok ⟨pc, d, b, g⟩ ∧
          Instruction.mnemonic ⟨pc, d, b, g⟩ = Text.lower mn ∧ d.layout.Agrees fs g := by
  have hfind := select_ok h
  have hd : d ∈ Descriptor.byMnemonic (Text.lower mn) := List.mem_of_find?_eq_some hfind
  have hacc : accepts d ops c (Text.lower mn) = true := by simpa using List.find?_some hfind
  obtain ⟨hall, hmn⟩ := mem_byMnemonic hd
  have hfs := select_eq_bind h
  -- the rules accept what the layout encodes
  obtain ⟨b, he⟩ := encode_ok_of_accepts hd hacc
  rw [← hfs] at he
  refine ⟨hd, (slot_fits_of_accepts hacc).1, b, he, by simp [encodeIn, h, he], fun pc => ?_⟩
  obtain ⟨g, hdec, hg, hag⟩ := Instruction.decode_of_encode hall he pc
  refine ⟨g, hdec, ?_, hag⟩
  rw [hfs] at hag
  exact mnemonic_of_agrees pc hmn hg hag

/-- `MOV r1, #1234h` chooses `E6h mov reg,#data16`, which encodes the operands and decodes
back to them. -/
theorem mov_immediate_encodes_and_decodes :
    ∃ d fs, select "MOV" [⟨.register (.word 1), "r1"⟩, ⟨.immediate 0x1234 true, "#1234h"⟩] {} =
        .ok (d, fs) ∧ d.opcode = 0xE6 ∧
      d ∈ Descriptor.byMnemonic (Text.lower "MOV") ∧ d.shape.slots.length = 2 ∧
      ∃ b, d.layout.encode d.opcode fs = .ok b ∧
        encodeIn "MOV" [⟨.register (.word 1), "r1"⟩, ⟨.immediate 0x1234 true, "#1234h"⟩] {} =
          .ok b ∧
        ∀ pc, ∃ g, Instruction.decode b pc = .ok ⟨pc, d, b, g⟩ ∧
          Instruction.mnemonic ⟨pc, d, b, g⟩ = Text.lower "MOV" ∧ d.layout.Agrees fs g := by
  have hop : (select "MOV" [⟨.register (.word 1), "r1"⟩, ⟨.immediate 0x1234 true, "#1234h"⟩]
      {}).toOption.map (·.1.opcode) = some 0xE6 := by
    decide +kernel
  revert hop
  cases hs : select "MOV" [⟨.register (.word 1), "r1"⟩, ⟨.immediate 0x1234 true, "#1234h"⟩] {} with
  | error e => simp [Except.toOption]
  | ok r =>
    intro hop
    simp only [Except.toOption, Option.map_some, Option.some.injEq] at hop
    exact ⟨r.1, r.2, rfl, hop, select_encodes_and_decodes hs⟩

end C166Codec
