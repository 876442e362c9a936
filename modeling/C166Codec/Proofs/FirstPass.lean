import C166Codec.Source.Select
import C166Codec.Proofs.CodecRoundTrip
/-!
# Choosing an opcode in the sizing pass

The sizing pass of assembly encodes each instruction before every label is known. It reads
the operands in a lax context (`Context.Relaxes`): the same address and ext window as the
emitting pass, and only labels bound at the addresses the emitting pass will see, an unknown
one standing for a placeholder.

Main statement, `encodeIn_length_relax`: when both passes encode an instruction, they write
the same number of bytes. Two facts carry it:

* every rule of selection that accepts the operands with all labels known accepts them
  laxly (`Select.accepts_relax`), and a lax acceptance is exact unless a label stands in a
  displacement or code-address slot (`Select.accepts_of_relax`);
* the opcode table has, for each mnemonic, one length for all the opcodes that take a label
  (`Select.labelSlot_table`).

So either both passes choose the same opcode, or both choose opcodes that take a label, which
have one length.
-/

namespace C166Codec

namespace Context

/-- `c'` reads operands as the sizing pass does where `c` reads them as the emitting pass
does: at the same address and in the same window, laxly, and knowing no label that `c` does
not know at the same address. -/
structure Relaxes (c c' : Context) : Prop where
  pc_eq : c'.pc = c.pc
  extended_eq : c'.extended = c.extended
  lax_eq : c'.lax = true
  lookup_eq : ∀ l t, c'.lookup l = some t → c.lookup l = some t

end Context

namespace Select

/-! ## §1. Whether an operand fits, in either pass -/

variable {c c' : Context} {mn : String} {len : Nat} {k : SlotKind} {o : Operand}

/-- The slot kinds whose operand may be a label: a displacement and a code address. -/
def labelKind : SlotKind → Bool
  | .rel | .caddr => true
  | _ => false

theorem labelKind_of_kindFits (hk : kindFits k o = true) (hl : o.isLabel = true) :
    labelKind k = true := by
  cases ho : o.form <;> simp [Operand.isLabel, ho] at hl
  cases k <;> simp [kindFits, labelKind, ho] at hk ⊢

/-- The displacement of an operand that is not a number: its label's distance. -/
theorem displacement?_of_not_relative (hf : ∀ v, o.form ≠ .relative v) :
    displacement? o c len =
      match c.lookup o.label with
      | none => if c.lax then some 0 else none
      | some t =>
        let delta : Int := (t.toNat : Int) - c.pc.toNat - len
        if delta % 2 ≠ 0 then none else some (delta / 2) := by
  unfold displacement?
  split
  · rename_i v hv
    exact absurd hv (hf v)
  · rfl

/-- The sizing pass finds the same displacement as the emitting pass, or 0 for a label it
does not know yet. -/
theorem displacement?_relax (hc : c.Relaxes c') {r : Int} (h : displacement? o c len = some r) :
    displacement? o c' len = some r ∨ displacement? o c' len = some 0 := by
  by_cases hf : ∃ v, o.form = .relative v
  · obtain ⟨v, hv⟩ := hf
    simp only [displacement?, hv] at h ⊢
    exact .inl h
  · simp only [not_exists] at hf
    rw [displacement?_of_not_relative hf] at h ⊢
    cases hl : c'.lookup o.label with
    | none => simp [hc.lax_eq]
    | some t =>
      left
      rw [hc.lookup_eq _ _ hl] at h
      simpa [hc.pc_eq] using h

/-- Outside the label slots, whether an operand fits does not depend on the labels. -/
theorem rangeFits_eq_of_not_labelKind (hc : c.Relaxes c') (hk : labelKind k = false) :
    rangeFits c' mn len k o = rangeFits c mn len k o := by
  cases k <;> simp_all [labelKind, rangeFits, hc.extended_eq]

/-- A number, a register or a short address fits its field in the sizing pass if it fits in
the emitting pass; a label fits there even before it is defined. -/
theorem rangeFits_relax (hc : c.Relaxes c') (h : rangeFits c mn len k o = true) :
    rangeFits c' mn len k o = true := by
  cases hk : labelKind k
  · rwa [rangeFits_eq_of_not_labelKind hc hk]
  · cases k <;> simp [labelKind] at hk
    case rel =>
      simp only [rangeFits] at h ⊢
      cases hd : displacement? o c len with
      | none => simp [hd] at h
      | some r =>
        rw [hd] at h
        rcases displacement?_relax hc hd with h' | h' <;> simp [h', within] at h ⊢
        exact h
    case caddr =>
      simp only [rangeFits] at h ⊢
      split <;> simp_all [hc.lax_eq]

/-- Outside a label in a label slot, both passes agree on whether an operand fits. -/
theorem rangeFits_eq (hc : c.Relaxes c') (hk : kindFits k o = true)
    (hl : labelKind k = true → o.isLabel = false) :
    rangeFits c' mn len k o = rangeFits c mn len k o := by
  cases hk' : labelKind k
  · exact rangeFits_eq_of_not_labelKind hc hk'
  · have hnl := hl hk'
    cases k <;> simp [labelKind] at hk'
    all_goals cases ho : o.form <;> simp [kindFits, Operand.isLabel, ho] at hk hnl
    all_goals simp [rangeFits, displacement?, ho]

/-! ## §2. Binding in either pass -/

theorem labelKind_field (sh : Shape) :
    ∀ s ∈ sh.slots, labelKind s.kind = true → s.field = .relative0 ∨ s.field = .address0 := by
  cases sh <;> decide

theorem embedded_field_ne {l : Layout} {f : Field} (h : l.embedded = some f) :
    f ≠ .relative0 ∧ f ≠ .address0 := by
  cases l <;> simp [Layout.embedded] at h <;> subst h <;> decide

/-- Binding one operand in either pass sets every field outside a label slot alike. -/
theorem bindSlot_get? (hc : c.Relaxes c') {fs fs' : Fields} {s : Slot} {f : Field}
    (hs : labelKind s.kind = true → s.field ≠ f) (hf : fs'.get? f = fs.get? f) :
    (bindSlot c' mn len fs' s o).get? f = (bindSlot c mn len fs s o).get? f := by
  unfold bindSlot
  cases hk : s.kind <;> simp [hk, labelKind] at hs
  case indOff | bitAddr => cases s.aux <;> simp [Fields.setUInt, hc.extended_eq, hf]
  case data3OrInd => cases o.form <;> simp [Fields.setUInt, Fields.setText, hf]
  case rel | caddr => simp [Fields.setUInt, Fields.setInt, Ne.symm hs, hf]
  all_goals simp [Fields.setUInt, hc.extended_eq, hf]


/-- The fields of a whole binding agree between the passes outside the label slots' fields. -/
theorem bind_get? (hc : c.Relaxes c') (d : Descriptor) (ops : List Operand) {f : Field}
    (hf : f ≠ .relative0 ∧ f ≠ .address0) :
    (bind d ops c' mn).get? f = (bind d ops c mn).get? f := by
  unfold bind
  -- the fold runs over the slots paired with operands; each step keeps the agreement at `f`
  have step : ∀ (ps : List (Slot × Operand)), (∀ p ∈ ps, p.1 ∈ d.shape.slots) →
      ∀ fs fs' : Fields, fs'.get? f = fs.get? f →
      (ps.foldl (fun fs p => bindSlot c' mn d.length fs p.1 p.2) fs').get? f =
        (ps.foldl (fun fs p => bindSlot c mn d.length fs p.1 p.2) fs).get? f := by
    intro ps hps
    induction ps with
    | nil => intro fs fs' h; exact h
    | cons p ps ih =>
      intro fs fs' h
      have hp := hps p (List.mem_cons_self ..)
      have hs : labelKind p.1.kind = true → p.1.field ≠ f := by
        intro hk
        rcases labelKind_field d.shape p.1 hp hk with h' | h' <;> rw [h'] <;> simp [Ne.symm hf.1, Ne.symm hf.2]
      exact ih (fun q hq => hps q (List.mem_cons_of_mem _ hq)) _ _ (bindSlot_get? hc hs h)
  exact step _ (fun p hp => (List.of_mem_zip hp).1) _ _ rfl

theorem check_relax (hc : c.Relaxes c') {d : Descriptor} {ops : List Operand} (r : Rule)
    (h : r.check d ops c mn = true) : r.check d ops c' mn = true := by
  cases r
  case range =>
    simp only [Rule.check, List.all_eq_true] at h ⊢
    exact fun p hp => rangeFits_relax hc (h p hp)
  case embedded =>
    simp only [Rule.check] at h ⊢
    split
    · rfl
    · rename_i f he
      rw [he] at h
      simpa [Fields.uint, bind_get? hc d ops (embedded_field_ne he)] using h
  all_goals exact h

/-- A sizing pass accepts every opcode the emitting pass accepts. -/
theorem accepts_relax (hc : c.Relaxes c') {d : Descriptor} {ops : List Operand}
    (h : accepts d ops c mn = true) : accepts d ops c' mn = true := by
  simp only [accepts, List.all_eq_true] at h ⊢
  exact fun r hr => check_relax hc r (h r hr)

theorem check_eq (hc : c.Relaxes c') {d : Descriptor} {ops : List Operand}
    (hkind : Rule.check .kind d ops c' mn = true)
    (hl : ∀ p ∈ d.shape.slots.zip ops, labelKind p.1.kind = true → p.2.isLabel = false)
    (r : Rule) : r.check d ops c' mn = r.check d ops c mn := by
  cases r
  case range =>
    simp only [Rule.check, List.all_eq_true] at hkind
    simp only [Rule.check]
    rw [Bool.eq_iff_iff, List.all_eq_true, List.all_eq_true]
    constructor
    · intro h p hp
      rw [← rangeFits_eq hc (hkind p hp) (hl p hp)]
      exact h p hp
    · intro h p hp
      rw [rangeFits_eq hc (hkind p hp) (hl p hp)]
      exact h p hp
  case embedded =>
    simp only [Rule.check]
    split
    · rfl
    · rename_i f he
      simp [Fields.uint, bind_get? hc d ops (embedded_field_ne he)]
  all_goals rfl

/-! ## §3. Labels and the opcode table -/

/-- Without a label in a label slot, the emitting pass accepts what the sizing pass accepts. -/
theorem accepts_of_relax (hc : c.Relaxes c') {d : Descriptor} {ops : List Operand}
    (h' : accepts d ops c' mn = true)
    (hl : ∀ p ∈ d.shape.slots.zip ops, labelKind p.1.kind = true → p.2.isLabel = false) :
    accepts d ops c mn = true := by
  simp only [accepts, List.all_eq_true] at h' ⊢
  have hkind := h' .kind (by simp [Rule.all])
  intro r hr
  rw [← check_eq hc hkind hl r]
  exact h' r hr

/-- True when some operand slot of the opcode takes a label. -/
def hasLabelSlot (d : Descriptor) : Bool := d.shape.slots.any fun s => labelKind s.kind

/-- An opcode that accepts a label operand has a label slot. -/
theorem hasLabelSlot_of_accepts {d : Descriptor} {ops : List Operand}
    (h : accepts d ops c mn = true) {o : Operand} (ho : o ∈ ops) (hl : o.isLabel = true) :
    hasLabelSlot d = true := by
  simp only [accepts, List.all_eq_true] at h
  have hcount := h .count (by simp [Rule.all])
  have hkind := h .kind (by simp [Rule.all])
  simp only [Rule.check, List.all_eq_true, Shape.arity] at hcount hkind
  have hlen : d.shape.slots.length = ops.length := of_decide_eq_true hcount
  obtain ⟨i, hi, rfl⟩ := List.getElem_of_mem ho
  have hi' : i < d.shape.slots.length := hlen ▸ hi
  have hmem : (d.shape.slots[i], ops[i]) ∈ d.shape.slots.zip ops :=
    List.mem_iff_getElem.mpr ⟨i, by simp [hi, hi'], by simp⟩
  exact List.any_eq_true.mpr ⟨_, List.getElem_mem hi', labelKind_of_kindFits (hkind _ hmem) hl⟩

set_option maxRecDepth 100000 in
/-- In the opcode table, an opcode with a label slot has one mnemonic, and the opcodes with
a label slot of one mnemonic have one length. -/
theorem labelSlot_table : ∀ d1 ∈ Descriptor.all, hasLabelSlot d1 = true →
    d1.layout.subTable = none ∧
      ∀ d2 ∈ Descriptor.all, hasLabelSlot d2 = true → d1.mnemonic = d2.mnemonic →
        d1.length = d2.length := by
  decide

theorem mem_byMnemonic {mn : String} {d : Descriptor} (h : d ∈ Descriptor.byMnemonic mn) :
    d ∈ Descriptor.all ∧ mn ∈ d.mnemonics := by
  simp only [Descriptor.byMnemonic, List.mem_append, List.mem_filter] at h
  rcases h with ⟨⟨h1, h2⟩, -⟩ | ⟨⟨h1, h2⟩, -⟩ <;> exact ⟨h1, by simpa using h2⟩

/-- Two opcodes of a mnemonic that both take a label have one length. -/
theorem length_eq_of_hasLabelSlot {mn : String} {d1 d2 : Descriptor}
    (h1 : d1 ∈ Descriptor.byMnemonic mn) (h2 : d2 ∈ Descriptor.byMnemonic mn)
    (l1 : hasLabelSlot d1 = true) (l2 : hasLabelSlot d2 = true) : d1.length = d2.length := by
  obtain ⟨a1, m1⟩ := mem_byMnemonic h1
  obtain ⟨a2, m2⟩ := mem_byMnemonic h2
  obtain ⟨n1, hlen⟩ := labelSlot_table d1 a1 l1
  obtain ⟨n2, -⟩ := labelSlot_table d2 a2 l2
  simp only [Descriptor.mnemonics, n1, n2, List.mem_singleton] at m1 m2
  exact hlen d2 a2 l2 (m1 ▸ m2)

end Select

/-! ## §4. The choice of both passes -/

theorem List.find?_eq_of_imp {α : Type} {p q : α → Bool} {xs : List α} {y : α}
    (hpq : ∀ x ∈ xs, p x = true → q x = true) (hq : xs.find? q = some y) (hp : p y = true) :
    xs.find? p = some y := by
  induction xs with
  | nil => simp at hq
  | cons x xs ih =>
    by_cases hqx : q x = true
    · rw [List.find?_cons_of_pos hqx] at hq
      cases hq
      exact List.find?_cons_of_pos hp
    · have hpx : ¬ p x = true := fun h => hqx (hpq x (List.mem_cons_self ..) h)
      rw [List.find?_cons_of_neg hqx] at hq
      rw [List.find?_cons_of_neg hpx]
      exact ih (fun z hz => hpq z (List.mem_cons_of_mem _ hz)) hq

theorem select_ok {mn : String} {ops : List Operand} {c : Context} {d : Descriptor} {fs : Fields}
    (h : select mn ops c = .ok (d, fs)) :
    (Descriptor.byMnemonic (Text.lower mn)).find? (Select.accepts · ops c (Text.lower mn)) =
      some d := by
  unfold select at h
  dsimp only at h
  split at h
  · cases h
  · split at h
    · rename_i hfind
      cases h
      exact hfind
    · split at h <;> cases h

theorem encodeIn_ok {mn : String} {ops : List Operand} {c : Context} {b : List UInt8}
    (h : encodeIn mn ops c = .ok b) :
    ∃ d fs, select mn ops c = .ok (d, fs) ∧ d.layout.encode d.opcode fs = .ok b := by
  unfold encodeIn at h
  split at h
  · cases h
  · rename_i d fs hs
    split at h
    · cases h
    · rename_i b' he
      cases h
      exact ⟨d, fs, hs, he⟩

/-- The opcode the sizing pass chooses has the length of the one the emitting pass chooses. -/
theorem select_length_relax {mn : String} {ops : List Operand} {c c' : Context} (hc : c.Relaxes c')
    {d d' : Descriptor} {fs fs' : Fields} (h : select mn ops c = .ok (d, fs))
    (h' : select mn ops c' = .ok (d', fs')) : d.length = d'.length := by
  have hf := select_ok h
  have hf' := select_ok h'
  have hd := List.find?_some hf
  have hd' := List.find?_some hf'
  by_cases hl : ∃ p ∈ d'.shape.slots.zip ops, Select.labelKind p.1.kind = true ∧ p.2.isLabel = true
  · -- a label in a label slot: both opcodes take labels, and the table gives them one length
    obtain ⟨p, hp, hk, hlab⟩ := hl
    have l' : Select.hasLabelSlot d' = true :=
      List.any_eq_true.mpr ⟨p.1, (List.of_mem_zip hp).1, hk⟩
    have l : Select.hasLabelSlot d = true :=
      Select.hasLabelSlot_of_accepts hd (List.of_mem_zip hp).2 hlab
    exact Select.length_eq_of_hasLabelSlot (List.mem_of_find?_eq_some hf)
      (List.mem_of_find?_eq_some hf') l l'
  · -- otherwise the emitting pass accepts the sizing pass's choice, which comes first
    simp only [not_exists, not_and, Bool.not_eq_true] at hl
    have hacc := Select.accepts_of_relax hc hd' hl
    have hsame := List.find?_eq_of_imp (fun x _ hx => Select.accepts_relax hc hx) hf' hacc
    rw [hf] at hsame
    cases hsame
    rfl

/-- An instruction has the same length in both passes when both encode it. -/
theorem encodeIn_length_relax {mn : String} {ops : List Operand} {c c' : Context}
    (hc : c.Relaxes c') {b b' : List UInt8} (h : encodeIn mn ops c = .ok b)
    (h' : encodeIn mn ops c' = .ok b') : b.length = b'.length := by
  obtain ⟨d, fs, hs, he⟩ := encodeIn_ok h
  obtain ⟨d', fs', hs', he'⟩ := encodeIn_ok h'
  rw [Layout.length_encode he, Layout.length_encode he']
  exact select_length_relax hc hs hs'

end C166Codec
