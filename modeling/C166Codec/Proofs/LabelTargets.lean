import C166Codec.Proofs.TwoPass
import C166Codec.Proofs.DecodeOutcome
/-!
# Labels and the branch targets of their instructions

An assembled instruction whose operand names a label decodes to a jump or a call, and its
target is determined by the label's address.

* A displacement slot (`jmpr`, `callr`, `jb`, `jnb`, `jbc`, `jnbs`) holds the word distance
  from the end of the instruction to the label, so the decoded target is the label's address
  itself (`Select.rel_target`).
* A code-address slot holds the label's low 16 bits. For `jmpa`, `calla` and `pcall` the
  decoder completes them with the segment of the instruction's own address, so the target is
  the label's address exactly when the label lies in that 64 KiB segment
  (`near_target_eq_iff`); a label in another segment gives a target in the instruction's
  segment (`far_label_jmpa_stays_in_segment`). For `jmps` and `calls` the segment is the
  instruction's segment operand.

Main statement, `assemble_label_targets`: this holds for every label operand of every line of
every successful assembly, at the address where the line's bytes stand.
-/

namespace C166Codec

/-! ## §1. The opcode table -/

namespace Descriptor

theorem opcode_of_familyEntry {op : UInt8} {row col : Nat} {p : Descriptor}
    (h : familyEntry op row col = some p) : p.opcode = op := by
  unfold familyEntry at h
  simp only [Option.bind_eq_bind, Option.bind_eq_some_iff] at h
  obtain ⟨_, -, _, -, h⟩ := h
  split_ifs at h <;> cases h <;> rfl

/-- The descriptor of an opcode byte carries that byte. -/
theorem opcode_of_lookup? {op : UInt8} {d : Descriptor} (h : lookup? op = some d) :
    d.opcode = op := by
  obtain ⟨p, hp, rfl⟩ := Option.map_eq_some_iff.mp h
  have hop : p.opcode = op := by
    simp only [plain?] at hp
    split at hp
    · exact opcode_of_familyEntry hp
    -- the regular columns D, E and F build the descriptor from the byte itself
    split at hp
    · cases hp; rfl
    split at hp
    · cases hp; rfl
    split at hp
    · cases hp; rfl
    · simpa using List.find?_some hp
  unfold markRegister
  split_ifs <;> exact hop

/-- Every descriptor of the table is the one its opcode byte looks up. -/
theorem lookup?_of_mem_all {d : Descriptor} (h : d ∈ all) : lookup? d.opcode = some d := by
  obtain ⟨n, -, hn⟩ := List.mem_filterMap.mp h
  rw [opcode_of_lookup? hn, hn]

end Descriptor

namespace Select

/-- The mnemonics whose label operand is a displacement. -/
def relMnemonics : List String := ["jmpr", "callr", "jb", "jnb", "jbc", "jnbs"]

/-- The mnemonics whose label operand is an address in the instruction's own segment. -/
def nearMnemonics : List String := ["jmpa", "calla", "pcall"]

/-- The mnemonics whose label operand is an offset in the segment of their other operand. -/
def farMnemonics : List String := ["jmps", "calls"]

set_option maxRecDepth 100000 in
/-- In the opcode table, an opcode with a label slot is a jump or a call, and its label slot is
the displacement of `jmpr`, `callr` and the bit jumps, or the code address of `jmpa`, `calla`
and `pcall` (packed like a memory address) or of `jmps` and `calls` (after a segment). -/
theorem labelSlot_branches : ∀ d ∈ Descriptor.all, ∀ s ∈ d.shape.slots, labelKind s.kind = true →
    (Instruction.branchKind d.flags = .jump ∨ Instruction.branchKind d.flags = .call) ∧
    ((s.kind = .rel ∧ s.field = .relative0 ∧ d.mnemonic ∈ relMnemonics ∧
        (d.layout = .condRel ∨ d.layout = .rel ∨ d.layout = .bitRel)) ∨
      (s.kind = .caddr ∧ s.field = .address0 ∧ d.mnemonic ∈ nearMnemonics ∧
        (d.layout = .condCaddr ∨ d.layout = .regMem)) ∨
      (s.kind = .caddr ∧ s.field = .address0 ∧ d.mnemonic ∈ farMnemonics ∧
        d.layout = .segCaddr)) := by
  decide

end Select

/-! ## §2. Decoding what the encoder writes -/

namespace Layout

variable {l : Layout} {g fs : Fields} {x : Field}

/-- A field packed as an unsigned number decodes to the number it was encoded from. -/
theorem uint_of_agrees (h : l.Agrees g fs) (hx : x ∈ l.packs g)
    (hu : x ≠ .relative0 ∧ x ≠ .mode0 ∧ x ≠ .mnemonic) : fs.has x = true ∧ fs.uint x = g.uint x := by
  obtain ⟨v, w, hv, hw, hs⟩ := h x hx
  have hvw : v.asUInt = w.asUInt := by
    obtain ⟨h1, h2, h3⟩ := hu
    unfold sameValue at hs
    split at hs <;> simp_all
  simp [Fields.has, Fields.uint, hv, hw, hvw]

/-- The displacement decodes to the signed number it was encoded from. -/
theorem int_of_agrees (h : l.Agrees g fs) (hx : .relative0 ∈ l.packs g) :
    fs.has .relative0 = true ∧ fs.int .relative0 = g.int .relative0 := by
  obtain ⟨v, w, hv, hw, hs⟩ := h .relative0 hx
  simp only [sameValue] at hs
  simp [Fields.has, Fields.int, hv, hw, hs]

end Layout

namespace Instruction

/-- The bytes an encoder writes for an opcode of the table decode, at any address, to an
instruction of that opcode whose fields agree with the encoded ones. -/
theorem decode_of_encode {d : Descriptor} {fs : Fields} {b : List UInt8} (hd : d ∈ Descriptor.all)
    (h : d.layout.encode d.opcode fs = .ok b) (pc : UInt32) :
    ∃ g, decode b pc = .ok ⟨pc, d, b, g⟩ ∧ d.layout.decode b = .ok g ∧ d.layout.Agrees fs g := by
  obtain ⟨hlen, hhead, g, hdec, hag, -⟩ := Layout.decode_encode h
  refine ⟨g, ?_, hdec, hag⟩
  obtain ⟨rest, rfl⟩ : ∃ rest, b = d.opcode :: rest := by
    cases b with
    | nil => cases hhead
    | cons x rest =>
      simp only [List.head?_cons, Option.some.injEq] at hhead
      exact ⟨rest, by rw [hhead]⟩
  have htake : (d.opcode :: rest).take d.length = d.opcode :: rest :=
    List.take_of_length_le (by simp [Descriptor.length, ← hlen])
  simp only [decode, Descriptor.lookup?_of_mem_all hd, hdec, htake]

end Instruction

/-! ## §3. Binding a label -/

/-- The fields that binding an operand to slot `s` may set: the slot's field and its aux, the
mode and both packed operands of `#data3`/`[Rw]`, and both fields of `#pag`/`#seg`. -/
def Slot.writes (s : Slot) : List Field :=
  s.field :: s.aux.toList ++
    match s.kind with
    | .data3OrInd => [.mode0, .data0, .register1]
    | .pageSeg => [.page0, .segment0]
    | _ => []

namespace Select

variable {c : Context} {mn : String} {len : Nat} {o : Operand}

theorem bindSlot_get?_of_not_writes {fs : Fields} {s : Slot} {f : Field} (hf : f ∉ s.writes) :
    (bindSlot c mn len fs s o).get? f = fs.get? f := by
  unfold bindSlot
  cases hk : s.kind <;> simp [Slot.writes, hk] at hf
  case indOff | bitAddr =>
    cases ha : s.aux with
    | none => simp [Fields.setUInt, hf.1]
    | some a => simp [ha] at hf; simp [Fields.setUInt, hf.1, Ne.symm hf.2]
  case data3OrInd => cases o.form <;> simp [Fields.setUInt, Fields.setText, hf]
  case pageSeg => cases isPageMnemonic mn <;> simp [Fields.setUInt, hf]
  all_goals simp [Fields.setUInt, Fields.setInt, hf.1]

/-- A label slot's field is set to the same value whatever the fields before. -/
theorem bindSlot_get?_label {s : Slot} (hk : labelKind s.kind = true) (fs fs' : Fields) :
    (bindSlot c mn len fs s o).get? s.field = (bindSlot c mn len fs' s o).get? s.field := by
  unfold bindSlot
  cases hk' : s.kind <;> simp [hk', labelKind] at hk ⊢ <;> simp [Fields.setUInt, Fields.setInt]

/-- No other slot of a shape writes the field of a label slot. -/
theorem labelSlot_writes_unique (sh : Shape) : ∀ j k : Fin sh.slots.length,
    labelKind sh.slots[j].kind = true → j ≠ k → sh.slots[j].field ∉ sh.slots[k].writes := by
  cases sh <;> decide

/-- A fold of bindings over slots that do not write `f` keeps `f`. -/
theorem foldl_bindSlot_get? {ps : List (Slot × Operand)} {f : Field}
    (h : ∀ p ∈ ps, f ∉ p.1.writes) (fs : Fields) :
    (ps.foldl (fun fs p => bindSlot c mn len fs p.1 p.2) fs).get? f = fs.get? f := by
  induction ps generalizing fs with
  | nil => rfl
  | cons p ps ih =>
    rw [List.foldl_cons, ih (fun q hq => h q (List.mem_cons_of_mem _ hq)),
      bindSlot_get?_of_not_writes (h p List.mem_cons_self)]

/-- The field of a label slot holds what binding its operand alone sets. -/
theorem bind_get?_label {d : Descriptor} {ops : List Operand} {j : Nat}
    (hj : j < d.shape.slots.length) (hjo : j < ops.length)
    (hk : labelKind d.shape.slots[j].kind = true) :
    (bind d ops c mn).get? d.shape.slots[j].field =
      (bindSlot c mn d.length Fields.empty d.shape.slots[j] ops[j]).get? d.shape.slots[j].field := by
  unfold bind
  set ps := d.shape.slots.zip ops with hps
  have hjp : j < ps.length := by simp [ps, hj, hjo]
  have hsplit : ps = ps.take j ++ ps[j] :: ps.drop (j + 1) := by
    rw [List.getElem_cons_drop, List.take_append_drop]
  have hpj : ps[j] = (d.shape.slots[j], ops[j]) := List.getElem_zip
  -- the slots after `j` leave its field alone
  have hlater : ∀ p ∈ ps.drop (j + 1), d.shape.slots[j].field ∉ p.1.writes := by
    intro p hp
    obtain ⟨m, hm, rfl⟩ := List.getElem_of_mem hp
    have hk' : j + 1 + m < d.shape.slots.length := by simp [ps] at hm; omega
    rw [List.getElem_drop, List.getElem_zip]
    exact labelSlot_writes_unique d.shape ⟨j, hj⟩ ⟨j + 1 + m, hk'⟩ hk (by simp [Fin.ext_iff]; omega)
  rw [hsplit, List.foldl_append, List.foldl_cons, foldl_bindSlot_get? hlater, hpj]
  exact bindSlot_get?_label hk _ _

/-- A displacement to a known label is half the label's distance from the end of the
instruction, and that distance is even. -/
theorem displacement?_label {L : String} {r : Int} (hl : o.form = .label L) (hlax : c.lax = false)
    (h : displacement? o c len = some r) :
    ∃ t, c.lookup L = some t ∧ (t.toNat : Int) - c.pc.toNat - len = 2 * r := by
  unfold displacement? at h
  simp only [hl, Operand.label] at h
  split at h
  · simp [hlax] at h
  · rename_i t ht
    split_ifs at h with hodd
    cases h
    exact ⟨t, ht, by omega⟩

/-- A code-address slot accepts a label only once it is known. -/
theorem lookup_of_rangeFits_caddr {L : String} (hl : o.form = .label L) (hlax : c.lax = false)
    (h : rangeFits c mn len .caddr o = true) : ∃ t, c.lookup L = some t := by
  simp only [rangeFits, hl, hlax, Bool.or_false, Option.isSome_iff_exists] at h
  exact h

end Select

/-! ## §4. Branch targets -/

/-- A signed number reinterpreted as a 32-bit word is the number modulo 2^32. -/
theorem toNat_toUInt32_toInt32 (r : Int) : r.toInt32.toUInt32.toNat = (r % 2 ^ 32).toNat := by
  rw [← UInt32.toNat_toBitVec, Int32.toBitVec_toUInt32]
  simp [Int.toInt32, BitVec.toNat_ofInt]

/-- A displacement of `r` words from the end of an instruction of `len` bytes at `pc`, where
`2 r` is the distance from there to `t`, lands on `t` in 32-bit arithmetic. -/
theorem rel_target {pc t : UInt32} {len : Nat} {r : Int} (hlen : len < 2 ^ 32)
    (hd : (t.toNat : Int) - pc.toNat - len = 2 * r) :
    pc + len.toUInt32 + r.toInt32.toUInt32 * 2 = t := by
  apply UInt32.toNat_inj.mp
  have ht := t.toNat_lt
  have hp := pc.toNat_lt
  have hl : len.toUInt32.toNat = len := by simp [Nat.toUInt32]; omega
  rw [UInt32.toNat_add, UInt32.toNat_add, UInt32.toNat_mul, toNat_toUInt32_toInt32, hl]
  simp
  omega

/-- The start of the 64 KiB segment of an address. -/
theorem toNat_segmentBase (a : UInt32) : (a &&& ~~~0xFFFF).toNat = a.toNat / 2 ^ 16 * 2 ^ 16 := by
  have ha := a.toNat_lt
  rw [UInt32.toNat_and]
  have hm : (~~~(0xFFFF : UInt32)).toNat = (2 ^ 16 - 1) * 2 ^ 16 := by decide
  rw [hm]
  apply Nat.eq_of_testBit_eq
  intro i
  rw [Nat.testBit_and, Nat.testBit_mul_two_pow, Nat.testBit_mul_two_pow,
    Nat.testBit_two_pow_sub_one, Nat.testBit_div_two_pow]
  -- bits 16 to 31 are the address's own, the others are clear on both sides
  by_cases h16 : 16 ≤ i
  · rw [Nat.sub_add_cancel h16]
    by_cases h32 : i < 32
    · simp [h16]; omega
    · have : a.toNat.testBit i = false :=
        Nat.testBit_lt_two_pow (lt_of_lt_of_le ha (Nat.pow_le_pow_right (by norm_num) (by omega)))
      simp [this]
  · simp [h16]

/-- Completing the low 16 bits of `t` with the segment of `a` gives `t` back exactly when `t`
lies in the segment of `a`. -/
theorem near_target_eq_iff (a t : UInt32) :
    (a &&& ~~~0xFFFF) ||| t % 0x10000 = t ↔ a / 0x10000 = t / 0x10000 := by
  have ht := t.toNat_lt
  have hlow : (t % 0x10000).toNat < 2 ^ 16 := by rw [UInt32.toNat_mod]; simp; omega
  have hor : ((a &&& ~~~0xFFFF) ||| t % 0x10000).toNat =
      a.toNat / 2 ^ 16 * 2 ^ 16 + t.toNat % 2 ^ 16 := by
    rw [UInt32.toNat_or, toNat_segmentBase, ← Nat.shiftLeft_eq,
      ← Nat.shiftLeft_add_eq_or_of_lt hlow, Nat.shiftLeft_eq, UInt32.toNat_mod]
    simp
  rw [← UInt32.toNat_inj, hor, ← UInt32.toNat_inj, UInt32.toNat_div, UInt32.toNat_div]
  simp
  omega

/-- The low 16 bits of an address. -/
theorem and_ffff_eq_mod (t : UInt32) : t &&& 0xFFFF = t % 0x10000 := by
  apply UInt32.toNat_inj.mp
  rw [UInt32.toNat_and, UInt32.toNat_mod]
  exact Nat.and_two_pow_sub_one_eq_mod _ 16

namespace Layout

variable {code : List UInt8} {fs : Fields}

/-- The near code-address layouts decode no displacement and no far address. -/
theorem decode_near {l : Layout} (hl : l = .condCaddr ∨ l = .regMem) (h : l.decode code = .ok fs) :
    fs.has .relative0 = false ∧ fs.has .address1 = false := by
  unfold decode at h
  split_ifs at h
  dsimp only at h
  split at h
  · cases h
  · rename_i body hb
    cases h
    rcases hl with rfl | rfl <;> simp only [decodeBody] at hb
    · split_ifs at hb
      cases hb
      simp [Fields.ofList, embeddedSetting, embedded, Fields.has]
    · cases hb
      simp [Fields.ofList, embeddedSetting, embedded, Fields.has]

/-- The far code-address layout decodes its segment and offset and composes them. -/
theorem decode_segCaddr (h : Layout.segCaddr.decode code = .ok fs) :
    fs.has .relative0 = false ∧ fs.has .address1 = true ∧
      fs.uint .address1 = fs.uint .segment0 * 0x10000 + fs.uint .address0 := by
  unfold decode at h
  split_ifs at h
  dsimp only at h
  split at h
  · cases h
  · rename_i body hb
    cases h
    simp only [decodeBody] at hb
    cases hb
    simp [Fields.ofList, embeddedSetting, embedded, Fields.has, Fields.uint, unsigned, wordValue]

end Layout

namespace Instruction

/-- A jump or a call has the static target its fields give. -/
theorem branch_of_kind {i : Instruction}
    (hk : branchKind i.descriptor.flags = .jump ∨ branchKind i.descriptor.flags = .call) :
    i.branch.kind = branchKind i.descriptor.flags ∧
      i.branch.target = staticTarget i.fields i.address i.size := by
  unfold branch
  rcases hk with hk | hk <;> simp [hk]

/-- The target a label at `t` gives instruction `ins` through its operand slot `s`: the label
itself through a displacement; its low 16 bits in the instruction's own segment through the
code address of `jmpa`, `calla` and `pcall`, which is the label exactly when the label lies in
that segment; its low 16 bits in the segment operand's segment for `jmps` and `calls`. -/
def LabelTarget (ins : Instruction) (s : Slot) (t : UInt32) : Prop :=
  (s.kind = .rel ∧ ins.descriptor.mnemonic ∈ Select.relMnemonics ∧ ins.branch.target = some t) ∨
  (s.kind = .caddr ∧ ins.descriptor.mnemonic ∈ Select.nearMnemonics ∧
    ins.branch.target = some ((ins.address &&& ~~~0xFFFF) ||| t % 0x10000) ∧
    (ins.branch.target = some t ↔ ins.address / 0x10000 = t / 0x10000)) ∨
  (s.kind = .caddr ∧ ins.descriptor.mnemonic ∈ Select.farMnemonics ∧
    ins.branch.target = some (ins.fields.uint .segment0 * 0x10000 + t % 0x10000))

end Instruction

/-! ## §5. One instruction -/

theorem select_eq_bind {mn : String} {ops : List Operand} {c : Context} {d : Descriptor}
    {fs : Fields} (h : select mn ops c = .ok (d, fs)) :
    fs = Select.bind d ops c (Text.lower mn) := by
  unfold select at h
  dsimp only at h
  split at h
  · cases h
  · split at h
    · cases h
      rfl
    · split at h <;> cases h

open Select in
/-- A label operand of a chosen opcode sits in a label slot that the range rule accepted it
for, and the slot's field holds what binding the operand alone sets. -/
theorem label_slot_of_select {mn : String} {ops : List Operand} {c : Context} {d : Descriptor}
    {fs : Fields} (hs : select mn ops c = .ok (d, fs)) {j : Nat} {L : String}
    (hj : ops[j]?.map Operand.form = some (.label L)) :
    ∃ (hjs : j < d.shape.slots.length) (o : Operand), ops[j]? = some o ∧ o.form = .label L ∧
      labelKind d.shape.slots[j].kind = true ∧
      rangeFits c (Text.lower mn) d.length d.shape.slots[j].kind o = true ∧
      fs.get? d.shape.slots[j].field =
        (bindSlot c (Text.lower mn) d.length Fields.empty d.shape.slots[j] o).get?
          d.shape.slots[j].field := by
  obtain ⟨o, hoj, hol⟩ : ∃ o, ops[j]? = some o ∧ o.form = .label L := by
    cases hoj : ops[j]? with
    | none => simp [hoj] at hj
    | some o => simp only [hoj, Option.map_some, Option.some.injEq] at hj; exact ⟨o, rfl, hj⟩
  obtain ⟨hjo, rfl⟩ := List.getElem?_eq_some_iff.mp hoj
  -- the count, kind and range rules of the chosen opcode
  have hacc := List.find?_some (select_ok hs)
  simp only [accepts, List.all_eq_true] at hacc
  have hcount := hacc .count (by simp [Rule.all])
  have hkind := hacc .kind (by simp [Rule.all])
  have hrange := hacc .range (by simp [Rule.all])
  simp only [Rule.check, List.all_eq_true, Shape.arity] at hcount hkind hrange
  have hjs : j < d.shape.slots.length := (of_decide_eq_true hcount) ▸ hjo
  have hmem : (d.shape.slots[j], ops[j]) ∈ d.shape.slots.zip ops :=
    List.mem_iff_getElem.mpr ⟨j, by simp [hjs, hjo], by simp⟩
  have hk : labelKind d.shape.slots[j].kind = true :=
    labelKind_of_kindFits (hkind _ hmem) (by simp [Operand.isLabel, hol])
  refine ⟨hjs, ops[j], hoj, hol, hk, hrange _ hmem, ?_⟩
  rw [select_eq_bind hs]
  exact bind_get?_label hjs hjo hk

open Select in
/-- An instruction encoded with every label known, whose operand `j` names the label `L`,
decodes at its address to a jump or a call whose target the label fixes. -/
theorem encodeIn_label_target {mn : String} {ops : List Operand} {c : Context} {b : List UInt8}
    (hlax : c.lax = false) (h : encodeIn mn ops c = .ok b) {j : Nat} {L : String}
    (hj : ops[j]?.map Operand.form = some (.label L)) :
    ∃ t ins s, c.lookup L = some t ∧ Instruction.decode b c.pc = .ok ins ∧ ins.address = c.pc ∧
      ins.descriptor.shape.slots[j]? = some s ∧
      (ins.branch.kind = .jump ∨ ins.branch.kind = .call) ∧ ins.LabelTarget s t := by
  obtain ⟨d, fs, hs, he⟩ := encodeIn_ok h
  obtain ⟨hall, -⟩ := mem_byMnemonic (List.mem_of_find?_eq_some (select_ok hs))
  obtain ⟨g, hdec, hlay, hag⟩ := Instruction.decode_of_encode hall he c.pc
  obtain ⟨hjs, o, -, hol, hk, hr, hbind⟩ := label_slot_of_select hs hj
  obtain ⟨hbk, hcase⟩ := labelSlot_branches d hall _ (List.getElem_mem hjs) hk
  obtain ⟨hbkind, htarget⟩ := Instruction.branch_of_kind (i := ⟨c.pc, d, b, g⟩) hbk
  simp only at hbkind htarget
  suffices ∃ t, c.lookup L = some t ∧ (Instruction.mk c.pc d b g).LabelTarget d.shape.slots[j] t by
    obtain ⟨t, ht, hlt⟩ := this
    exact ⟨t, _, _, ht, hdec, rfl, List.getElem?_eq_getElem hjs, hbkind ▸ hbk, hlt⟩
  rcases hcase with ⟨hrel, hfield, hmn, hl⟩ | hcaddr
  · -- a displacement: the decoder adds twice the bound words to the end of the instruction
    rw [hfield] at hbind
    simp only [rangeFits, hrel] at hr
    split at hr
    · rename_i r hdisp
      obtain ⟨t, ht, hd⟩ := displacement?_label hol hlax hdisp
      have hv : fs.int .relative0 = r.toInt32 := by
        simp [Fields.int, hbind, bindSlot, hrel, hfield, Fields.setInt, hdisp]
      have hp : Field.relative0 ∈ d.layout.packs fs := by
        rcases hl with hl | hl | hl <;> simp [Layout.packs, hl]
      obtain ⟨hhas, hint⟩ := Layout.int_of_agrees hag hp
      have hlen : d.length < 2 ^ 32 := by
        have := d.layout.length_eq
        simp only [Descriptor.length]
        omega
      refine ⟨t, ht, .inl ⟨hrel, hmn, ?_⟩⟩
      rw [htarget]
      simp only [Instruction.staticTarget, hhas, if_true, hint, hv, Instruction.size]
      rw [rel_target hlen hd]
    · cases hr
  · -- a code address: the field holds the label's low 16 bits, completed by a segment
    have hca : d.shape.slots[j].kind = .caddr ∧ d.shape.slots[j].field = .address0 := by
      rcases hcaddr with ⟨h1, h2, -⟩ | ⟨h1, h2, -⟩ <;> exact ⟨h1, h2⟩
    rw [hca.2] at hbind
    obtain ⟨t, ht⟩ := lookup_of_rangeFits_caddr hol hlax (hca.1 ▸ hr)
    have hv : fs.uint .address0 = t &&& 0xFFFF := by
      simp [Fields.uint, hbind, bindSlot, hca, Fields.setUInt, hol, ht]
    refine ⟨t, ht, ?_⟩
    rcases hcaddr with ⟨-, -, hmn, hl⟩ | ⟨-, -, hmn, hl⟩
    · -- `jmpa`, `calla`, `pcall`: the segment of the instruction's own address
      have hp : Field.address0 ∈ d.layout.packs fs := by
        rcases hl with hl | hl <;> simp [Layout.packs, hl]
      obtain ⟨hhas, huint⟩ := Layout.uint_of_agrees hag hp (by decide)
      obtain ⟨hnr, hna⟩ := Layout.decode_near hl hlay
      have hnear : (Instruction.mk c.pc d b g).branch.target =
          some ((c.pc &&& ~~~0xFFFF) ||| t % 0x10000) := by
        rw [htarget]
        simp [Instruction.staticTarget, hnr, hna, hhas, huint, hv, and_ffff_eq_mod]
      refine .inr (.inl ⟨hca.1, hmn, hnear, ?_⟩)
      rw [hnear, Option.some.injEq]
      exact near_target_eq_iff c.pc t
    · -- `jmps`, `calls`: the segment operand's segment
      have hp : Field.address0 ∈ d.layout.packs fs := by simp [Layout.packs, hl]
      obtain ⟨-, huint⟩ := Layout.uint_of_agrees hag hp (by decide)
      obtain ⟨hnr, hhas, hcomp⟩ := Layout.decode_segCaddr (hl ▸ hlay)
      refine .inr (.inr ⟨hca.1, hmn, ?_⟩)
      rw [htarget]
      simp [Instruction.staticTarget, hnr, hhas, hcomp, huint, hv, and_ffff_eq_mod]

/-! ## §6. The emitting pass -/

namespace Program

variable {pc : UInt32} {L Lf F : List (String × UInt32)} {w : SourceWindow}

/-- The sizing pass records one size per node. -/
theorem length_sizes {ns : List Node} {ss : List Nat} (h : sizes pc L w ns = .ok (Lf, ss)) :
    ss.length = ns.length := by
  induction ns generalizing pc L w ss with
  | nil =>
    simp only [sizes, Except.ok.injEq, Prod.mk.injEq] at h
    simp [← h.2]
  | cons n rest ih =>
    obtain ⟨s, ss', L', w', -, rfl, hrest⟩ := sizes_cons h
    simp [ih hrest]

/-- A successful emitting pass writes its nodes' bytes one after another, and the bytes of an
instruction are what it encodes with every label known at the address where they stand. -/
theorem emit_chunks {ns : List Node} {ss : List Nat} {code : List UInt8}
    (h : emit pc F w ns ss = .ok code) (hlen : ss.length = ns.length) :
    ∃ chunks : List (List UInt8), code = chunks.flatten ∧
      ∀ i mn ops, ns[i]?.map Node.item = some (.instruction mn ops) →
        ∃ b ext, chunks[i]? = some b ∧
          encodeIn mn ops ⟨pc + (chunks.take i).flatten.length.toUInt32, F, false, ext⟩ = .ok b := by
  induction ns generalizing pc w ss code with
  | nil =>
    simp only [emit, Except.ok.injEq] at h
    exact ⟨[], by simp [h], by simp⟩
  | cons n rest ih =>
    obtain ⟨s, ss, rfl⟩ : ∃ s ss', ss = s :: ss' := by
      cases ss with
      | nil => simp at hlen
      | cons s ss' => exact ⟨s, ss', rfl⟩
    simp only [List.length_cons, Nat.add_right_cancel_iff] at hlen
    -- a node writing `b` before the rest: the rest's lines stand `b.length` bytes further on
    have step : ∀ b w' code', b.length = s → emit (pc + s.toUInt32) F w' rest ss = .ok code' →
        ∃ chunks : List (List UInt8), b ++ code' = chunks.flatten ∧ chunks[0]? = some b ∧
          ∀ i mn ops, rest[i]?.map Node.item = some (.instruction mn ops) →
            ∃ b' ext, chunks[i + 1]? = some b' ∧
              encodeIn mn ops ⟨pc + (chunks.take (i + 1)).flatten.length.toUInt32, F, false, ext⟩ =
                .ok b' := by
      intro b w' code' hb hrest
      obtain ⟨chunks, rfl, hc⟩ := ih hrest hlen
      refine ⟨b :: chunks, by simp, rfl, fun i mn ops hi => ?_⟩
      obtain ⟨b', ext, hb', henc⟩ := hc i mn ops hi
      refine ⟨b', ext, by simpa using hb', ?_⟩
      simpa [List.take_succ_cons, hb, UInt32.add_assoc] using henc
    simp only [emit] at h
    split at h
    · rename_i l hit
      obtain ⟨chunks, rfl, hc⟩ := ih h hlen
      refine ⟨[] :: chunks, by simp, fun i mn ops hi => ?_⟩
      cases i with
      | zero => simp [hit] at hi
      | succ i => simpa using hc i mn ops (by simpa using hi)
    · rename_i d args hit
      split at h
      · cases h
      · rename_i b hgen
        split_ifs at h with hb
        · obtain ⟨code', hrest, rfl⟩ := Except.map_eq_ok h
          obtain ⟨chunks, hflat, hhead, hc⟩ := step b _ _ (by simpa using hb) hrest
          refine ⟨chunks, hflat, fun i mn ops hi => ?_⟩
          cases i with
          | zero => simp [hit] at hi
          | succ i => exact hc i mn ops (by simpa using hi)
    · rename_i mn ops hit
      split at h
      · cases h
      · rename_i b henc
        split_ifs at h with hb
        · obtain ⟨code', hrest, rfl⟩ := Except.map_eq_ok h
          obtain ⟨chunks, hflat, hhead, hc⟩ := step b _ _ (by simpa using hb) hrest
          refine ⟨chunks, hflat, fun i mn' ops' hi => ?_⟩
          cases i with
          | zero =>
            simp only [List.getElem?_cons_zero, Option.map_some, hit, Option.some.injEq,
              Item.instruction.injEq] at hi
            obtain ⟨rfl, rfl⟩ := hi
            exact ⟨b, w.active, hhead, by simpa using henc⟩
          | succ i => exact hc i mn' ops' (by simpa using hi)

end Program

/-! ## §7. Assembly -/

/-- Every label operand of every assembled line decodes, at the address where the line's bytes
stand, to a jump or a call whose target the label fixes (`Instruction.LabelTarget`): the
label's address for a displacement, and its low 16 bits completed by a segment for a code
address. -/
theorem assemble_label_targets {src : String} {base : UInt32} {code : List UInt8}
    (h : (assemble src base).result = .ok code) :
    ∃ (nodes : List Node) (chunks : List (List UInt8)),
      Program.parseLines 1 (Statement.lines src.toList) = .ok nodes ∧ code = chunks.flatten ∧
      ∀ (i : Nat) (mn : String) (ops : List Operand) (j : Nat) (L : String),
        nodes[i]?.map Node.item = some (.instruction mn ops) →
        ops[j]?.map Operand.form = some (.label L) →
        ∃ b t ins s, chunks[i]? = some b ∧ (assemble src base).labels.lookup L = some t ∧
          Instruction.decode b (base + (chunks.take i).flatten.length.toUInt32) = .ok ins ∧
          ins.descriptor.shape.slots[j]? = some s ∧
          (ins.branch.kind = .jump ∨ ins.branch.kind = .call) ∧ ins.LabelTarget s t := by
  revert h
  unfold assemble
  split
  · simp
  · rename_i nodes hparse
    split
    · simp
    · rename_i labels ss hsizes
      intro h
      obtain ⟨chunks, rfl, hinstr⟩ := Program.emit_chunks h (Program.length_sizes hsizes)
      refine ⟨nodes, chunks, hparse, rfl, fun i mn ops j L hi hL => ?_⟩
      obtain ⟨b, ext, hb, henc⟩ := hinstr i mn ops hi
      obtain ⟨t, ins, s, ht, hdec, -, hs, hkind, htarget⟩ := encodeIn_label_target rfl henc hL
      exact ⟨b, t, ins, s, hb, ht, hdec, hs, hkind, htarget⟩

/-- `jmpr cc_uc, fwd` before `fwd: nop` assembles to `0D 00 CC 00`, and its label operand
decodes to a jump whose target is `fwd`. -/
theorem forward_jump_label_target :
    (assemble "    jmpr cc_uc, fwd\nfwd: nop\n" 0).result = .ok [0x0D, 0x00, 0xCC, 0x00] ∧
    ∃ (nodes : List Node) (chunks : List (List UInt8)),
      Program.parseLines 1 (Statement.lines "    jmpr cc_uc, fwd\nfwd: nop\n".toList) = .ok nodes ∧
      [0x0D, 0x00, 0xCC, 0x00] = chunks.flatten ∧
      ∀ (i : Nat) (mn : String) (ops : List Operand) (j : Nat) (L : String),
        nodes[i]?.map Node.item = some (.instruction mn ops) →
        ops[j]?.map Operand.form = some (.label L) →
        ∃ b t ins s, chunks[i]? = some b ∧
          (assemble "    jmpr cc_uc, fwd\nfwd: nop\n" 0).labels.lookup L = some t ∧
          Instruction.decode b (0 + (chunks.take i).flatten.length.toUInt32) = .ok ins ∧
          ins.descriptor.shape.slots[j]? = some s ∧
          (ins.branch.kind = .jump ∨ ins.branch.kind = .call) ∧ ins.LabelTarget s t := by
  have hres : (assemble "    jmpr cc_uc, fwd\nfwd: nop\n" 0).result = .ok [0x0D, 0x00, 0xCC, 0x00] := by
    have h : (assemble "    jmpr cc_uc, fwd\nfwd: nop\n" 0).result.toOption =
        some [0x0D, 0x00, 0xCC, 0x00] := by
      decide +kernel
    revert h
    cases (assemble "    jmpr cc_uc, fwd\nfwd: nop\n" 0).result <;> simp [Except.toOption]
  exact ⟨hres, assemble_label_targets hres⟩

/-- `jmpa cc_UC, far` at FFFCh, with `far` bound to 10000h at the start of the next segment, is
written as `EA 00 00 00`; decoded at FFFCh it jumps to 0000h, the start of its own segment. -/
theorem far_label_jmpa_stays_in_segment :
    (assemble "    jmpa cc_UC, far\nfar:\n    nop\n" 0xFFFC).result =
        .ok [0xEA, 0x00, 0x00, 0x00, 0xCC, 0x00] ∧
      (assemble "    jmpa cc_UC, far\nfar:\n    nop\n" 0xFFFC).labels.lookup "far" = some 0x10000 ∧
      ∃ ins, Instruction.decode [0xEA, 0x00, 0x00, 0x00] 0xFFFC = .ok ins ∧
        ins.branch.target = some 0 := by
  have hres : (assemble "    jmpa cc_UC, far\nfar:\n    nop\n" 0xFFFC).result.toOption =
      some [0xEA, 0x00, 0x00, 0x00, 0xCC, 0x00] := by
    decide +kernel
  refine ⟨?_, by decide +kernel, _, rfl, by decide⟩
  revert hres
  cases (assemble "    jmpa cc_UC, far\nfar:\n    nop\n" 0xFFFC).result <;> simp [Except.toOption]

end C166Codec
