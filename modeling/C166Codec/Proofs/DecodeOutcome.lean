import C166Codec.Proofs.Needs
import C166Codec.Instruction.Decode
import C166Codec.Instruction.Render
import C166Codec.Listing.Flow
/-!
# What decoding one instruction can give

`Instruction.decode code pc` is a total function; this module says which of its answers
comes when.

* It fails as truncated exactly when the buffer is empty or shorter than the layout of its
  opcode byte, as an unknown instruction exactly when the opcode byte is unused, and
  otherwise, when it fails, as an invalid instruction: the layout refused a reserved pattern
  (`Instruction.truncated_iff`, `Instruction.unknown_iff`).
* A decoded instruction is determined by its own bytes: what follows them is never read
  (`Instruction.decode_bytes_append`).
* Writing an operand reads only fields that decoding set (`Render.Readable`): each slot's
  field and second field, except that a `#data3/[Rw]` operand reads the mode tag and then the
  data or the index register by the tag, and a `#pag/#seg` operand reads the page when it is
  set and the segment otherwise. The tag is always one the writer knows.

The field reads are checked against the opcode table once (`Layout.covers_table`): every slot
of every opcode asks only for fields its layout's encoder needs, and decoded fields meet every
such need (`Layout.needs_of_decode`).

Main statement: `Instruction.decode_outcome`.
-/

namespace C166Codec

/-! ## §1. Layouts refuse short input or a reserved pattern -/

namespace Layout

/-- A layout refuses bytes exactly when they are too few, or when the bytes of its length hold
a reserved pattern. -/
theorem decode_eq_error {l : Layout} {code : List UInt8} {e : LayoutError}
    (h : l.decode code = .error e) :
    code.length < l.length ∧ e = .truncated l code.length ∨
      ¬ code.length < l.length ∧ ∃ why, e = .malformed (code.take l.length) why := by
  unfold decode at h
  split at h
  · exact .inl ⟨‹_›, (Except.error.inj h).symm⟩
  · dsimp only at h
    split at h
    · exact .inr ⟨‹_›, _, (Except.error.inj h).symm⟩
    · cases h

/-- A layout reads only the bytes of its length. -/
theorem decode_take_append {l : Layout} {code : List UInt8} (h : l.length ≤ code.length)
    (rest : List UInt8) : l.decode (code.take l.length ++ rest) = l.decode code := by
  have hlen : ¬ (code.take l.length ++ rest).length < l.length := by simp; omega
  have htake : (code.take l.length ++ rest).take l.length = code.take l.length := by
    rw [List.take_append_of_le_length (by simp; omega), List.take_take, Nat.min_self]
  unfold decode
  rw [if_neg hlen, if_neg (by omega), htake]

/-- A layout accepts only bytes at least as many as its length. -/
theorem length_le_of_decode {l : Layout} {code : List UInt8} {fs : Fields}
    (h : l.decode code = .ok fs) : l.length ≤ code.length := by
  unfold decode at h
  split at h
  · cases h
  · omega

end Layout

/-! ## §2. Decoding one instruction -/

namespace Instruction

variable {code : List UInt8} {pc : UInt32}

/-- What a successful decode read: a used opcode byte whose layout accepts the buffer. -/
theorem decode_eq_ok {i : Instruction} (h : decode code pc = .ok i) :
    ∃ op rest d fs, code = op :: rest ∧ Descriptor.lookup? op = some d ∧
      d.layout.decode code = .ok fs ∧ i = ⟨pc, d, code.take d.length, fs⟩ := by
  unfold decode at h
  split at h
  · cases h
  · rename_i op rest
    split at h
    · cases h
    · rename_i d hd
      split at h
      · cases h
      · rename_i fs hfs
        exact ⟨op, rest, d, fs, rfl, hd, hfs, (Except.ok.inj h).symm⟩

/-- Why a decode failed: an empty buffer, an unused opcode byte, or its layout's refusal. -/
theorem decode_eq_error {e : DecodeError} (h : decode code pc = .error e) :
    code = [] ∧ e = .empty pc ∨
      (∃ op rest, code = op :: rest ∧ Descriptor.lookup? op = none ∧ e = .unknownOpcode op pc) ∨
      ∃ op rest d le, code = op :: rest ∧ Descriptor.lookup? op = some d ∧
        d.layout.decode code = .error le ∧ e = .layout d.mnemonic pc le := by
  unfold decode at h
  split at h
  · exact .inl ⟨rfl, (Except.error.inj h).symm⟩
  · rename_i op rest
    split at h
    · exact .inr (.inl ⟨op, rest, rfl, ‹_›, (Except.error.inj h).symm⟩)
    · rename_i d hd
      split at h
      · rename_i le hle
        exact .inr (.inr ⟨op, rest, d, le, rfl, hd, hle, (Except.error.inj h).symm⟩)
      · cases h

/-- A decoded instruction's bytes are the front of the buffer, as many as its layout has. -/
theorem bytes_of_decode {i : Instruction} (h : decode code pc = .ok i) :
    i.bytes = code.take i.size ∧ i.size ≤ code.length := by
  obtain ⟨op, rest, d, fs, rfl, -, hfs, rfl⟩ := decode_eq_ok h
  exact ⟨rfl, Layout.length_le_of_decode hfs⟩

/-- **A decoded instruction depends only on its own bytes**: decoding them, followed by
anything, at the same address gives the same instruction. -/
theorem decode_bytes_append {i : Instruction} (h : decode code pc = .ok i) (rest : List UInt8) :
    decode (i.bytes ++ rest) pc = .ok i := by
  obtain ⟨op, tail, d, fs, rfl, hd, hfs, rfl⟩ := decode_eq_ok h
  have hle : d.layout.length ≤ (op :: tail).length := Layout.length_le_of_decode hfs
  -- the bytes start with the opcode byte, as a layout is at least two bytes long
  obtain ⟨k, hk⟩ : ∃ k, d.layout.length = k + 1 :=
    ⟨d.layout.length - 1, by rcases d.layout.length_eq with h2 | h4 <;> omega⟩
  have hfront : (op :: tail).take d.length ++ rest = op :: (tail.take k ++ rest) := by
    simp [Descriptor.length, hk]
  have htake : ((op :: tail).take d.length ++ rest).take d.length = (op :: tail).take d.length := by
    rw [List.take_append_of_le_length (by simp [Descriptor.length]; omega), List.take_take,
      Nat.min_self]
  have hdec : d.layout.decode ((op :: tail).take d.length ++ rest) = .ok fs := by
    rw [Descriptor.length, Layout.decode_take_append hle, hfs]
  simp only at hdec htake ⊢
  rw [hfront] at hdec htake ⊢
  simp [decode, hd, hdec, htake]

/-- The failure classes of decoding: truncated, unknown or invalid, nothing else. -/
theorem errorClass_of_decode {e : DecodeError} (h : decode code pc = .error e) :
    e.errorClass = .truncated ∨ e.errorClass = .unknownInstruction ∨
      e.errorClass = .invalidInstruction := by
  rcases decode_eq_error h with ⟨-, rfl⟩ | ⟨-, -, -, -, rfl⟩ | ⟨-, -, d, le, -, -, hle, rfl⟩
  · exact .inl rfl
  · exact .inr (.inl rfl)
  · rcases Layout.decode_eq_error hle with ⟨-, rfl⟩ | ⟨-, why, rfl⟩
    · exact .inl rfl
    · exact .inr (.inr rfl)

/-- Decoding fails as truncated exactly on an empty buffer or one shorter than the layout of
its used opcode byte. -/
theorem truncated_iff :
    (∃ e, decode code pc = .error e ∧ e.errorClass = .truncated) ↔
      code = [] ∨ ∃ op d, code.head? = some op ∧ Descriptor.lookup? op = some d ∧
        code.length < d.length := by
  constructor
  · rintro ⟨e, he, hc⟩
    rcases decode_eq_error he with ⟨rfl, -⟩ | ⟨op, rest, -, -, rfl⟩ | ⟨op, rest, d, le, rfl, hd, hle, rfl⟩
    · exact .inl rfl
    · cases hc
    · rcases Layout.decode_eq_error hle with ⟨hs, -⟩ | ⟨-, why, rfl⟩
      · exact .inr ⟨op, d, rfl, hd, hs⟩
      · cases hc
  · rintro (rfl | ⟨op, d, hop, hd, hs⟩)
    · exact ⟨_, rfl, rfl⟩
    · obtain ⟨rest, rfl⟩ : ∃ rest, code = op :: rest := by
        cases code with
        | nil => cases hop
        | cons x rest => cases hop; exact ⟨rest, rfl⟩
      have hs' : rest.length + 1 < d.layout.length := hs
      exact ⟨.layout d.mnemonic pc (.truncated d.layout (op :: rest).length),
        by simp [decode, hd, Layout.decode, hs'], rfl⟩

/-- Decoding fails as an unknown instruction exactly when the opcode byte is unused. -/
theorem unknown_iff :
    (∃ e, decode code pc = .error e ∧ e.errorClass = .unknownInstruction) ↔
      ∃ op, code.head? = some op ∧ Descriptor.lookup? op = none := by
  constructor
  · rintro ⟨e, he, hc⟩
    rcases decode_eq_error he with ⟨-, rfl⟩ | ⟨op, rest, rfl, hd, rfl⟩ | ⟨op, rest, d, le, -, -, hle, rfl⟩
    · cases hc
    · exact ⟨op, rfl, hd⟩
    · rcases Layout.decode_eq_error hle with ⟨-, rfl⟩ | ⟨-, why, rfl⟩ <;> cases hc
  · rintro ⟨op, hop, hd⟩
    cases code with
    | nil => cases hop
    | cons x rest =>
      cases hop
      exact ⟨.unknownOpcode op pc, by simp [decode, hd], rfl⟩

end Instruction

/-! ## §3. What writing an operand reads -/

namespace Render

/-- The fields the text of an operand in slot `s` reads from `fs`. A data-or-register operand
reads its mode tag, then the index register under an `[Rw]` or `[Rw+]` tag and the data
under any other; a page-or-segment operand reads the page when it is set, else the segment;
an indexed operand and a bit address also read their second field. -/
def reads (s : Slot) (fs : Fields) : List Field :=
  match s.kind with
  | .data3OrInd =>
    .mode0 :: (if fs.text .mode0 = Mode.reg ∨ fs.text .mode0 = Mode.regInc then [.register1]
      else [.data0])
  | .pageSeg => if fs.has .page0 then [.page0] else [.segment0]
  | .indOff | .bitAddr => s.field :: s.aux.toList
  | _ => [s.field]

/-- The text of an operand depends only on the fields it reads: two maps that read the same
fields, with the same values, write the same text. -/
theorem operand_congr {s : Slot} {fs fs' : Fields} (extended : Bool)
    (hr : reads s fs' = reads s fs) (h : ∀ f ∈ reads s fs, fs'.get? f = fs.get? f) :
    operand s fs' extended = operand s fs extended := by
  unfold operand
  cases hk : s.kind
  case data3OrInd =>
    simp only [reads, hk, List.mem_cons, forall_eq_or_imp] at h
    have ht : fs'.text .mode0 = fs.text .mode0 := by simp [Fields.text, h.1]
    unfold data3OrInd
    by_cases hi : fs.text .mode0 = Mode.reg ∨ fs.text .mode0 = Mode.regInc
    · simp only [hi, if_true, List.mem_singleton, forall_eq] at h
      rcases hi with hi | hi <;> simp [ht, hi, Fields.uint, h.2]
    · simp only [hi, if_false, List.mem_singleton, forall_eq] at h
      simp only [not_or] at hi
      simp [ht, hi, Fields.uint, h.2]
  case pageSeg =>
    simp only [reads, hk] at h hr
    by_cases hp : fs.has .page0 = true
    · simp_all [Fields.uint]
    · have hp' : fs'.has .page0 = false := by
        by_contra hc
        simp_all
      simp_all [Fields.uint]
  case indOff | bitAddr =>
    simp only [reads, hk, List.mem_cons, forall_eq_or_imp] at h
    cases ha : s.aux <;> simp_all [Fields.uint]
  all_goals
    have hf := h s.field (by simp [reads, hk])
    simp [Fields.uint, Fields.int, hf]

/-- Writing the operand of slot `s` from `fs` reads only fields that are set, and a mode tag
is one of the three the writer knows. -/
def Readable (s : Slot) (fs : Fields) : Prop :=
  (∀ f ∈ reads s fs, fs.has f = true) ∧
    (s.kind = .data3OrInd → fs.text .mode0 ∈ [Mode.data3, Mode.reg, Mode.regInc])

end Render

/-! ## §4. Decoded fields are the fields the writer reads -/

theorem Fields.has_of_text_ne {fs : Fields} {f : Field} (h : fs.text f ≠ "") : fs.has f = true := by
  cases hf : fs.get? f with
  | none => simp [Fields.text, hf] at h
  | some v => simp [Fields.has, hf]

theorem Descriptor.mem_all_of_lookup? {op : UInt8} {d : Descriptor} (h : lookup? op = some d) :
    d ∈ all :=
  List.mem_filterMap.mpr ⟨op.toNat, List.mem_range.mpr op.toNat_lt, by simpa using h⟩

namespace Layout

/-- The field a need asks to be set, whatever else the map holds: none for the page or
segment, which one depends on the mnemonic. -/
def Need.field? : Need → Option Field
  | .atMost f _ | .embedded f => some f
  | .displacement => some .relative0
  | .mode => some .mode0
  | .sub _ => some .mnemonic
  | .range => some .irange0
  | .pageOrSegment => none

/-- A need that holds has its field set. -/
theorem Need.has_of_holds {op : UInt8} {fs : Fields} {n : Need} {f : Field}
    (hn : n.Holds op fs) (hf : n.field? = some f) : fs.has f = true := by
  cases n <;> simp only [field?, Option.some.injEq, reduceCtorEq] at hf <;> subst hf
  case atMost => obtain ⟨v, hv, -⟩ := hn; simp [Fields.has, hv]
  case embedded => obtain ⟨⟨v, hv, -⟩, -⟩ := hn; simp [Fields.has, hv]
  case displacement => obtain ⟨v, hv, -⟩ := hn; simp [Fields.has, hv]
  case range => obtain ⟨v, hv, -⟩ := hn; simp [Fields.has, hv]
  case mode =>
    apply Fields.has_of_text_ne
    rcases hn with ⟨h3, -⟩ | ⟨h3 | h3, -⟩ <;> rw [h3] <;> decide
  case sub t =>
    -- a selected mnemonic is an entry of the table, and no entry is empty
    obtain ⟨sel, hsel⟩ := Option.isSome_iff_exists.mp hn
    exact Fields.has_of_text_ne (SubTable.entry_ne_empty (SubTable.entry_of_select? hsel))

/-- The fields a layout's encoder asks to be set in every field map. -/
def fixedFields (l : Layout) : List Field := l.needs.filterMap Need.field?

theorem has_of_mem_fixedFields {l : Layout} {op : UInt8} {fs : Fields}
    (h : ∀ n ∈ l.needs, n.Holds op fs) {f : Field} (hf : f ∈ l.fixedFields) : fs.has f = true := by
  obtain ⟨n, hn, hnf⟩ := List.mem_filterMap.mp hf
  exact Need.has_of_holds (h n hn) hnf

/-- Whether the layout sets what the writer reads for slot `s`: a data-or-register operand
needs the layout with a mode tag, a page-or-segment operand the ext layout, and any other
operand its field and second field among the layout's fixed fields. -/
def covers (l : Layout) (s : Slot) : Bool :=
  match s.kind with
  | .data3OrInd => l == .data3OrReg
  | .pageSeg => l == .extImm
  | _ => l.fixedFields.contains s.field && s.aux.all l.fixedFields.contains

set_option maxRecDepth 100000 in
/-- Every slot of every opcode is covered by the opcode's layout. -/
theorem covers_table : ∀ d ∈ Descriptor.all, ∀ s ∈ d.shape.slots, d.layout.covers s = true := by
  decide

/-- A decoded `#data3/[Rw]` operand sets its data field exactly in the data mode; in the two
register modes it sets the index register instead. -/
theorem has_data0_of_decode {code : List UInt8} {fs : Fields}
    (h : Layout.data3OrReg.decode code = .ok fs) :
    fs.has .data0 = decide (fs.text .mode0 = Mode.data3) := by
  unfold decode at h
  split at h
  · cases h
  · dsimp only at h
    split at h
    · cases h
    · rename_i body hbody
      cases h
      generalize (code.take data3OrReg.length).getD 1 0 = b1 at hbody
      simp only [decodeBody, embeddedSetting, embedded, List.nil_append] at hbody ⊢
      split at hbody <;> cases hbody
      · simp [Fields.ofList, Fields.has, Fields.text, Fields.set, Fields.empty]
      · split_ifs <;>
          simp [Fields.ofList, Fields.has, Fields.text, Fields.set, Fields.empty, Mode.reg,
            Mode.regInc, Mode.data3]

end Layout

namespace Render

/-- Outside the data-or-register and page-or-segment kinds, an operand reads its slot's field
and second field. -/
theorem reads_subset {s : Slot} (fs : Fields) (h3 : s.kind ≠ .data3OrInd) (hp : s.kind ≠ .pageSeg) :
    ∀ f ∈ reads s fs, f = s.field ∨ f ∈ s.aux := by
  intro f hf
  unfold reads at hf
  split at hf <;> simp_all

/-- Outside the data-or-register and page-or-segment kinds, an operand reads its slot's
field. -/
theorem field_mem_reads {s : Slot} (fs : Fields) (h3 : s.kind ≠ .data3OrInd)
    (hp : s.kind ≠ .pageSeg) : s.field ∈ reads s fs := by
  unfold reads
  split <;> simp_all

end Render

/-- A `#data3/[Rw]` slot names the data field, and a `#pag/#seg` slot the page. -/
theorem Shape.field_of_kind (sh : Shape) : ∀ s ∈ sh.slots,
    (s.kind = .data3OrInd → s.field = .data0) ∧ (s.kind = .pageSeg → s.field = .page0) := by
  cases sh <;> decide

namespace Instruction

variable {code : List UInt8} {pc : UInt32}

/-- **Writing a decoded instruction reads only fields that decoding set**, and its mode tag is
a known one. -/
theorem readable_of_decode {i : Instruction} (h : decode code pc = .ok i) :
    ∀ s ∈ i.descriptor.shape.slots, Render.Readable s i.fields := by
  obtain ⟨op, rest, d, fs, rfl, hd, hfs, rfl⟩ := decode_eq_ok h
  intro s hs
  have hneeds := Layout.needs_of_decode hfs
  have hcov := Layout.covers_table d (Descriptor.mem_all_of_lookup? hd) s hs
  by_cases h3 : s.kind = .data3OrInd
  · -- the data-or-register layout: the mode need names the tag and the field it selects
    have hl : d.layout = .data3OrReg := by simpa [Layout.covers, h3] using hcov
    have hmode := hneeds .mode (by rw [hl]; simp [Layout.needs, Layout.embedded])
    have htag := Layout.Need.has_of_holds hmode rfl
    refine ⟨fun f hf => ?_, fun _ => ?_⟩
    · simp only [Render.reads, h3, List.mem_cons] at hf
      rcases hmode with ⟨hm, ⟨v, hv, -⟩⟩ | ⟨hm, ⟨v, hv, -⟩⟩
      · have hn : ¬ (fs.text .mode0 = Mode.reg ∨ fs.text .mode0 = Mode.regInc) := by
          rw [hm]; decide
        simp only [hn, if_false, List.mem_singleton] at hf
        rcases hf with rfl | rfl
        · exact htag
        · simp [Fields.has, hv]
      · simp only [hm, if_true, List.mem_singleton] at hf
        rcases hf with rfl | rfl
        · exact htag
        · simp [Fields.has, hv]
    · rcases hmode with ⟨hm, -⟩ | ⟨hm | hm, -⟩ <;> simp [hm]
  by_cases hp : s.kind = .pageSeg
  · -- the ext layout sets the page exactly for a page mnemonic, and the segment otherwise
    have hl : d.layout = .extImm := by simpa [Layout.covers, hp] using hcov
    have hps := hneeds .pageOrSegment (by rw [hl]; simp [Layout.needs, Layout.embedded])
    have hpage := Layout.has_page0_of_decode (hl ▸ hfs)
    refine ⟨fun f hf => ?_, fun hk => absurd hk (by simp [hp])⟩
    simp only [Render.reads, hp] at hf
    split at hf
    · rename_i hset
      simp only [List.mem_singleton] at hf
      exact hf ▸ hset
    · rename_i hset
      simp only [List.mem_singleton] at hf
      subst hf
      simp only [Layout.Need.Holds, ← hpage, hset, Bool.false_eq_true, if_false] at hps
      obtain ⟨v, hv, -⟩ := hps
      simp [Fields.has, hv]
  · -- any other slot reads its fields, which the layout always sets
    have hfix : d.layout.fixedFields.contains s.field = true ∧
        s.aux.all d.layout.fixedFields.contains = true := by
      simpa [Layout.covers, h3, hp] using hcov
    refine ⟨fun f hf => ?_, fun hk => absurd hk h3⟩
    rcases Render.reads_subset fs h3 hp f hf with rfl | ha
    · exact Layout.has_of_mem_fixedFields hneeds (by simpa using hfix.1)
    · rw [Option.mem_def] at ha
      rw [ha] at hfix
      exact Layout.has_of_mem_fixedFields hneeds (by simpa using hfix.2)

/-- **A slot's field that its operand does not read stays unset**: the data field of a
`#data3/[Rw]` operand decoded in a register mode, and the page of an ext operand that takes a
segment. -/
theorem unread_field_unset {i : Instruction} (h : decode code pc = .ok i) :
    ∀ s ∈ i.descriptor.shape.slots, s.field ∉ Render.reads s i.fields →
      i.fields.has s.field = false := by
  obtain ⟨op, rest, d, fs, rfl, hd, hfs, rfl⟩ := decode_eq_ok h
  intro s hs hnot
  obtain ⟨h3f, hpf⟩ := d.shape.field_of_kind s hs
  by_cases h3 : s.kind = .data3OrInd
  · -- the data field is read in the data mode, the one mode that sets it
    have hl : d.layout = .data3OrReg := by
      simpa [Layout.covers, h3] using Layout.covers_table d (Descriptor.mem_all_of_lookup? hd) s hs
    rw [h3f h3] at hnot ⊢
    rw [Layout.has_data0_of_decode (hl ▸ hfs)]
    by_cases hm : fs.text .mode0 = Mode.data3
    · simp [Render.reads, h3, hm, Mode.data3, Mode.reg, Mode.regInc] at hnot
    · simp [hm]
  by_cases hp : s.kind = .pageSeg
  · -- the page is read whenever it is set
    rw [hpf hp] at hnot ⊢
    cases hset : fs.has .page0 with
    | false => rfl
    | true => simp [Render.reads, hp, hset] at hnot
  · exact absurd (Render.field_mem_reads fs h3 hp) hnot

end Instruction

/-! ## §5. The sweep of a listing -/

namespace Listing

/-- The sweep holds, at an even offset with a byte after it, the instruction decoded there. -/
theorem instrAt_sweep {code : List UInt8} {base : UInt32} {o : Nat} {i : Instruction}
    (h : instrAt (sweep code base) o = some i) :
    o % 2 = 0 ∧ o + 1 < code.length ∧
      Instruction.decode (code.drop o) (base + o.toUInt32) = .ok i := by
  unfold instrAt sweep at h
  by_cases ho : o < code.length
  · simp only [List.getElem?_toArray, List.getElem?_map, List.getElem?_range ho, Option.map_some,
      Option.bind_some, id] at h
    split_ifs at h with hc
    · exact ⟨hc.1, hc.2, Except.eq_ok_of_toOption h⟩
  · simp [ho] at h

/-- Every instruction a listing may write is one whose operands read only set fields. -/
theorem sweep_readable {code : List UInt8} {base : UInt32} {o : Nat} {i : Instruction}
    (h : instrAt (sweep code base) o = some i) :
    ∀ s ∈ i.descriptor.shape.slots, Render.Readable s i.fields :=
  Instruction.readable_of_decode (instrAt_sweep h).2.2

end Listing

/-! ## §6. Decoding, all told -/

/-- **Decoding is total and classifies every buffer.** It fails as truncated exactly when the
buffer is empty or shorter than the layout of its used opcode byte, and as an unknown
instruction exactly when the opcode byte is unused; any other failure is an invalid
instruction. A decoded instruction is the front of the buffer, determined by those bytes
alone, and writing it reads only fields that decoding set, with a known mode tag. The text of
each operand is fixed by the fields it reads (`Render.reads`), and a slot's field that its
operand does not read stays unset. So every instruction the sweep of a listing holds is
written from set fields. -/
theorem Instruction.decode_outcome (code : List UInt8) (pc : UInt32) :
    ((∃ e, decode code pc = .error e ∧ e.errorClass = .truncated) ↔
        code = [] ∨ ∃ op d, code.head? = some op ∧ Descriptor.lookup? op = some d ∧
          code.length < d.length) ∧
    ((∃ e, decode code pc = .error e ∧ e.errorClass = .unknownInstruction) ↔
        ∃ op, code.head? = some op ∧ Descriptor.lookup? op = none) ∧
    (∀ e, decode code pc = .error e →
        e.errorClass = .truncated ∨ e.errorClass = .unknownInstruction ∨
          e.errorClass = .invalidInstruction) ∧
    (∀ i, decode code pc = .ok i →
        i.bytes = code.take i.size ∧ (∀ rest, decode (i.bytes ++ rest) pc = .ok i) ∧
          ∀ s ∈ i.descriptor.shape.slots, Render.Readable s i.fields ∧
            (s.field ∉ Render.reads s i.fields → i.fields.has s.field = false) ∧
            ∀ (fs : Fields) (extended : Bool), Render.reads s fs = Render.reads s i.fields →
              (∀ f ∈ Render.reads s i.fields, fs.get? f = i.fields.get? f) →
              Render.operand s fs extended = Render.operand s i.fields extended) ∧
    ∀ base o i, Listing.instrAt (Listing.sweep code base) o = some i →
      ∀ s ∈ i.descriptor.shape.slots, Render.Readable s i.fields :=
  ⟨truncated_iff, unknown_iff, fun _ => errorClass_of_decode,
    fun _ h => ⟨(bytes_of_decode h).1, decode_bytes_append h, fun s hs =>
      ⟨readable_of_decode h s hs, unread_field_unset h s hs,
        fun _ extended hr hf => Render.operand_congr extended hr hf⟩⟩,
    fun _ _ _ => Listing.sweep_readable⟩

/-- `add r14, [r2+]`, read from `08 EE`, has a `#data3/[Rw]` operand whose slot names the data
field; in post-increment mode the decoder sets the index register instead and leaves the data
field unset. -/
theorem postInc_operand_leaves_data_unset :
    ∃ i, Instruction.decode [0x08, 0xEE] 0 = .ok i ∧
      (⟨.data3OrInd, .data0, none⟩ : Slot) ∈ i.descriptor.shape.slots ∧
      i.fields.has .data0 = false ∧ i.fields.has .register1 = true :=
  ⟨_, rfl, by decide, by decide, by decide⟩

end C166Codec
