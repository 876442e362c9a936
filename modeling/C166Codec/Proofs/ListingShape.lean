import C166Codec.Listing.Print
import C166Codec.Proofs.DecodeOutcome
import C166Codec.Proofs.HexText
/-!
# The shape of a listing

A listing walks its buffer from offset 0 and cuts it into pieces (`Listing.plan`): a code
instruction printed whole, or a run of data up to the next code instruction. This module
proves what that walk guarantees for every buffer, base and option.

* The pieces cover the offsets `0 .. n-1` of the buffer one after another, in strictly
  increasing order (`Listing.flatMap_offsets_plan`, `Listing.pairwise_start_plan`).
* A printed instruction is the one decoded at an even offset that the flow search made code,
  and it ends inside the buffer; a data run holds no code offset and ends at code or at the
  end (`Listing.code_mem_plan`, `Listing.data_mem_plan`).
* The offsets that a second walk over the code offsets marks as written
  (`Listing.renderStarts`) are exactly the starts of printed instructions
  (`Listing.renderStarts_eq_starts`, `Listing.written_iff`).
* A label line `loc_XXXX:` or `sub_XXXX:` stands only before a printed instruction, and the
  label a branch operand names is defined by exactly one such line, at the branch's target
  (`disassemble_wellFormed`).
-/

namespace C166Codec.Listing

/-! ## §1. Searching for code -/

section NextCode

variable {isCode : Nat → Bool} {n : Nat}

/-- The search for code from `start` stops at the first code offset, or at the end. -/
theorem nextCode_spec {start : Nat} (h : start ≤ n) :
    start ≤ nextCode isCode n start ∧ nextCode isCode n start ≤ n ∧
      (∀ o, start ≤ o → o < nextCode isCode n start → isCode o = false) ∧
      (nextCode isCode n start < n → isCode (nextCode isCode n start) = true) := by
  induction start using nextCode.induct isCode n with
  | case1 s hs hc =>
    rw [nextCode, if_pos hs, if_pos hc]
    exact ⟨le_refl s, h, fun o h1 h2 => absurd h2 (by omega), fun _ => hc⟩
  | case2 s hs hc ih =>
    rw [nextCode, if_pos hs, if_neg hc]
    obtain ⟨hle, hend, hskip, hstop⟩ := ih (by omega)
    refine ⟨by omega, hend, fun o h1 h2 => ?_, hstop⟩
    -- `s` itself is not code; the offsets after it are the recursive search's
    rcases Nat.eq_or_lt_of_le h1 with rfl | h1
    · simpa using hc
    · exact hskip o h1 h2
  | case3 s hs =>
    rw [nextCode, if_neg hs]
    exact ⟨le_refl s, h, fun o h1 h2 => absurd h2 (by omega), fun h' => absurd h' hs⟩

end NextCode

/-! ## §2. The pieces of a listing -/

/-- The first offset a piece covers. -/
def Piece.start : Piece → Nat
  | .data s _ => s
  | .code s _ => s

/-- The number of bytes a piece covers. -/
def Piece.length : Piece → Nat
  | .data _ bytes => bytes.length
  | .code _ i => i.size

/-- The offsets a piece covers. -/
def Piece.offsets (p : Piece) : List Nat := List.range' p.start p.length

section Plan

variable {code : List UInt8} {codeAt : Nat → Option Instruction} {pc : Nat}

/-- Where the data run from a non-code offset `pc` ends. -/
def dataEnd (code : List UInt8) (codeAt : Nat → Option Instruction) (pc : Nat) : Nat :=
  nextCode (fun o => (codeAt o).isSome) code.length (pc + 1)

theorem plan_code (hpc : pc < code.length) {i : Instruction} (hi : codeAt pc = some i) :
    plan code codeAt pc = .code pc i :: plan code codeAt (pc + i.size) := by
  rw [plan, if_pos hpc, hi]

theorem plan_data (hpc : pc < code.length) (hi : codeAt pc = none) :
    plan code codeAt pc =
      .data pc ((code.drop pc).take (dataEnd code codeAt pc - pc)) ::
        plan code codeAt (dataEnd code codeAt pc) := by
  rw [plan, if_pos hpc, hi]
  rfl

theorem plan_end (hpc : ¬ pc < code.length) : plan code codeAt pc = [] := by
  rw [plan, if_neg hpc]

/-- A data run from `pc` reaches the next code offset, or the end, and covers no code. -/
theorem dataEnd_spec (codeAt : Nat → Option Instruction) (hpc : pc < code.length) :
    pc < dataEnd code codeAt pc ∧ dataEnd code codeAt pc ≤ code.length ∧
      (∀ o, pc < o → o < dataEnd code codeAt pc → codeAt o = none) ∧
      (dataEnd code codeAt pc < code.length → (codeAt (dataEnd code codeAt pc)).isSome) := by
  obtain ⟨hle, hend, hskip, hstop⟩ :=
    @nextCode_spec (fun o => (codeAt o).isSome) code.length (pc + 1) (by omega)
  exact ⟨hle, hend, fun o h1 h2 => Option.not_isSome_iff_eq_none.mp (by simpa using hskip o h1 h2),
    hstop⟩

/-- The bytes of the data run from `pc`. -/
theorem length_dataRun (hpc : pc < code.length) :
    ((code.drop pc).take (dataEnd code codeAt pc - pc)).length = dataEnd code codeAt pc - pc := by
  have := (dataEnd_spec codeAt hpc).2.1
  simp only [List.length_take, List.length_drop]
  omega

/-- Every piece from `pc` on starts at `pc` or later. -/
theorem start_ge_of_mem_plan {p : Piece} (h : p ∈ plan code codeAt pc) : pc ≤ p.start := by
  induction pc using plan.induct code codeAt with
  | case1 pc hpc i hi _ ih =>
    rw [plan_code hpc hi, List.mem_cons] at h
    rcases h with rfl | h
    · exact le_refl _
    · have := ih h
      omega
  | case2 pc hpc hi _ _ ih =>
    rw [plan_data hpc hi, List.mem_cons] at h
    rcases h with rfl | h
    · exact le_refl _
    · have := ih h
      have := (dataEnd_spec codeAt hpc).1
      omega
  | case3 pc hpc => simp [plan_end hpc] at h

/-- The pieces start at strictly increasing offsets. -/
theorem pairwise_start_plan (pc : Nat) :
    (plan code codeAt pc).Pairwise (fun p q => p.start < q.start) := by
  induction pc using plan.induct code codeAt with
  | case1 pc hpc i hi hsize ih =>
    rw [plan_code hpc hi, List.pairwise_cons]
    refine ⟨fun q hq => ?_, ih⟩
    have hq' : pc + i.size ≤ q.start := start_ge_of_mem_plan hq
    exact Nat.lt_of_lt_of_le (Nat.lt_add_of_pos_right hsize) hq'
  | case2 pc hpc hi _ _ ih =>
    rw [plan_data hpc hi, List.pairwise_cons]
    refine ⟨fun q hq => ?_, ih⟩
    have hq' : dataEnd code codeAt pc ≤ q.start := start_ge_of_mem_plan hq
    exact Nat.lt_of_lt_of_le (dataEnd_spec codeAt hpc).1 hq'
  | case3 pc hpc => simp [plan_end hpc]

/-- The pieces from `pc` cover the offsets from `pc` to the end of the buffer, one after
another, when every code instruction ends inside the buffer. -/
theorem flatMap_offsets_plan (hfit : ∀ o i, codeAt o = some i → o + i.size ≤ code.length)
    (pc : Nat) : (plan code codeAt pc).flatMap Piece.offsets = List.range' pc (code.length - pc) := by
  induction pc using plan.induct code codeAt with
  | case1 pc hpc i hi _ ih =>
    have hsz := hfit pc i hi
    rw [plan_code hpc hi, List.flatMap_cons, ih]
    have hcat := @List.range'_append pc i.size (code.length - (pc + i.size)) 1
    simp only [Nat.one_mul] at hcat
    simp only [Piece.offsets, Piece.start, Piece.length, hcat]
    congr 1
    omega
  | case2 pc hpc hi _ _ ih =>
    obtain ⟨hlt, hend, -, -⟩ := dataEnd_spec codeAt hpc
    have ih' : (plan code codeAt (dataEnd code codeAt pc)).flatMap Piece.offsets =
        List.range' (dataEnd code codeAt pc) (code.length - dataEnd code codeAt pc) := ih
    rw [plan_data hpc hi, List.flatMap_cons, ih']
    have hcat := @List.range'_append pc (dataEnd code codeAt pc - pc)
      (code.length - dataEnd code codeAt pc) 1
    simp only [Nat.one_mul, Nat.add_sub_cancel' (Nat.le_of_lt hlt)] at hcat
    simp only [Piece.offsets, Piece.start, Piece.length, length_dataRun hpc, hcat]
    congr 1
    omega
  | case3 pc hpc =>
    rw [plan_end hpc]
    simp only [List.flatMap_nil]
    rw [Nat.sub_eq_zero_of_le (by omega), List.range'_zero]

/-- A printed instruction is the code instruction at its offset. -/
theorem code_mem_plan {s : Nat} {i : Instruction} (h : .code s i ∈ plan code codeAt pc) :
    codeAt s = some i := by
  induction pc using plan.induct code codeAt with
  | case1 pc hpc i' hi _ ih =>
    rw [plan_code hpc hi, List.mem_cons] at h
    rcases h with h | h
    · cases h
      exact hi
    · exact ih h
  | case2 pc hpc hi _ _ ih =>
    rw [plan_data hpc hi, List.mem_cons] at h
    rcases h with h | h
    · cases h
    · exact ih h
  | case3 pc hpc => simp [plan_end hpc] at h

/-- A data run holds the buffer's bytes from its start, covers no code offset, and ends at
the end of the buffer or where a printed instruction starts. -/
theorem data_mem_plan {s : Nat} {bytes : List UInt8} (h : .data s bytes ∈ plan code codeAt pc) :
    bytes = (code.drop s).take bytes.length ∧ 0 < bytes.length ∧
      (∀ o, s ≤ o → o < s + bytes.length → codeAt o = none) ∧
      (s + bytes.length = code.length ∨ ∃ i, .code (s + bytes.length) i ∈ plan code codeAt pc) := by
  induction pc using plan.induct code codeAt with
  | case1 pc hpc i hi _ ih =>
    rw [plan_code hpc hi] at h ⊢
    rcases List.mem_cons.mp h with h | h
    · cases h
    · obtain ⟨hbytes, hpos, hnone, hend⟩ := ih h
      refine ⟨hbytes, hpos, hnone, hend.imp_right fun ⟨j, hj⟩ => ⟨j, List.mem_cons_of_mem _ hj⟩⟩
  | case2 pc hpc hi _ _ ih =>
    rw [plan_data hpc hi] at h ⊢
    rcases List.mem_cons.mp h with h | h
    · -- the run from `pc` itself: up to the next code offset
      cases h
      obtain ⟨hlt, hle, hskip, hstop⟩ := dataEnd_spec codeAt hpc
      rw [length_dataRun hpc, Nat.add_sub_cancel' (Nat.le_of_lt hlt)]
      refine ⟨rfl, by omega, fun o h1 h2 => ?_, ?_⟩
      · rcases Nat.eq_or_lt_of_le h1 with rfl | h1
        · exact hi
        · exact hskip o h1 h2
      · rcases Nat.eq_or_lt_of_le hle with heq | hlt'
        · exact .inl heq
        · obtain ⟨j, hj⟩ := Option.isSome_iff_exists.mp (hstop hlt')
          exact .inr ⟨j, List.mem_cons_of_mem _ (by rw [plan_code hlt' hj]; exact List.mem_cons_self)⟩
    · obtain ⟨hbytes, hpos, hnone, hend⟩ := ih h
      refine ⟨hbytes, hpos, hnone, hend.imp_right fun ⟨j, hj⟩ => ⟨j, List.mem_cons_of_mem _ hj⟩⟩
  | case3 pc hpc => simp [plan_end hpc] at h

end Plan

/-! ## §3. The offsets marked as written -/

theorem size_starts (n : Nat) (pieces : List Piece) : (starts n pieces).size = n := by
  induction pieces using List.reverseRecOn with
  | nil => simp [starts]
  | append_singleton ps p ih =>
    cases p with
    | data s bytes =>
      simp only [starts, List.foldl_append, List.foldl_cons, List.foldl_nil]
      exact ih
    | code s i =>
      simp only [starts, List.foldl_append, List.foldl_cons, List.foldl_nil]
      change ((starts n ps).setIfInBounds s true).size = n
      rw [Array.size_setIfInBounds, ih]

/-- `starts` marks exactly the offsets inside the buffer where a printed instruction starts. -/
theorem starts_iff (n : Nat) (pieces : List Piece) (o : Nat) :
    (starts n pieces)[o]?.getD false = true ↔ o < n ∧ ∃ i, Piece.code o i ∈ pieces := by
  -- one piece at a time from the end: a printed instruction sets its own offset only
  induction pieces using List.reverseRecOn with
  | nil =>
    simp only [starts, List.foldl_nil, Array.getElem?_replicate]
    split <;> simp
  | append_singleton ps p ih =>
    cases p with
    | data s bytes =>
      simp only [starts, List.foldl_append, List.foldl_cons, List.foldl_nil]
      change (starts n ps)[o]?.getD false = true ↔ _
      simp [ih]
    | code s i =>
      simp only [starts, List.foldl_append, List.foldl_cons, List.foldl_nil]
      change ((starts n ps).setIfInBounds s true)[o]?.getD false = true ↔ _
      rw [Array.getElem?_setIfInBounds, size_starts]
      by_cases hs : s = o
      · subst hs
        by_cases hn : s < n <;> simp [hn]
      · simp [hs, ih, Ne.symm hs]

/-! ## §3a. The walk that marks the written starts

A listing finds the offsets where it writes instructions by a second walk over the code
offsets (`renderStarts`), apart from the walk that cuts the buffer into pieces. Both go from
a code offset to the end of its instruction and from any other offset to the next code
offset, so the second walk marks the starts of the first one's instructions. -/

section Walk

variable {codeAt : Nat → Option Instruction} {n pc : Nat} {marks : Array Bool}

theorem renderStarts_code (hpc : pc < n) {i : Instruction} (hi : codeAt pc = some i) :
    renderStarts codeAt n pc marks =
      renderStarts codeAt n (pc + i.size) (marks.setIfInBounds pc true) := by
  rw [renderStarts, dif_pos hpc]
  split
  · rename_i i' hc
    rw [hi, Option.some.injEq] at hc
    rw [hc]
  · rename_i hc
    rw [hi] at hc
    cases hc

theorem renderStarts_data {code : List UInt8} (hpc : pc < code.length) (hi : codeAt pc = none) :
    renderStarts codeAt code.length pc marks =
      renderStarts codeAt code.length (dataEnd code codeAt pc) marks := by
  rw [renderStarts, dif_pos hpc]
  split
  · rename_i i' hc
    rw [hi] at hc
    cases hc
  · -- the search from `pc` steps over it at once
    have hskip := @nextCode_of_not_code (fun o => (codeAt o).isSome) code.length pc hpc
      (by simp [hi])
    simp only [hskip]
    rfl

theorem renderStarts_end (hpc : ¬ pc < n) : renderStarts codeAt n pc marks = marks := by
  rw [renderStarts, dif_neg hpc]

/-- From any offset, the second walk marks what the pieces from that offset mark. -/
theorem renderStarts_eq_foldl {code : List UInt8} (pc : Nat) (marks : Array Bool) :
    renderStarts codeAt code.length pc marks = (plan code codeAt pc).foldl markStart marks := by
  induction pc using plan.induct code codeAt generalizing marks with
  | case1 pc hpc i hi _ ih =>
    rw [renderStarts_code hpc hi, plan_code hpc hi, List.foldl_cons, ih]
    rfl
  | case2 pc hpc hi _ _ ih =>
    rw [renderStarts_data hpc hi, plan_data hpc hi, List.foldl_cons]
    exact ih marks
  | case3 pc hpc => rw [renderStarts_end hpc, plan_end hpc, List.foldl_nil]

/-- **The second walk marks the starts of the listing's instructions.** -/
theorem renderStarts_eq_starts (code : List UInt8) (codeAt : Nat → Option Instruction) :
    renderStarts codeAt code.length 0 (Array.replicate code.length false) =
      starts code.length (plan code codeAt 0) :=
  renderStarts_eq_foldl 0 _

end Walk

/-! ## §4. The offsets of labels -/

theorem isSome_markLabel {labels : Array (Option LabelKind)} {tgt o : Nat} {kind : BranchKind}
    (h : ((markLabel labels tgt kind)[o]?.bind id).isSome) :
    o = tgt ∨ (labels[o]?.bind id).isSome := by
  by_cases ho : tgt = o
  · exact .inl ho.symm
  · right
    unfold markLabel at h
    split_ifs at h <;> simpa [Array.getElem?_setIfInBounds, ho] using h

/-- The flow search labels only offsets below 2^32: a label stands at the distance of a
32-bit target from the base. -/
theorem labels_explore_lt {sw : Array (Option Instruction)} {base : UInt32} {fuel : Nat}
    {queue seen : List Nat} {fl : Flow} (h : ∀ o, (fl.labels[o]?.bind id).isSome → o < 2 ^ 32) :
    ∀ o, ((explore sw base fuel queue seen fl).labels[o]?.bind id).isSome → o < 2 ^ 32 := by
  fun_induction explore sw base fuel queue seen fl
  case case1 | case2 => exact h
  case case5 ih =>
    -- the one step that labels: at the target's distance from the base
    refine ih fun o ho => ?_
    rcases isSome_markLabel ho with rfl | ho
    · exact UInt32.toNat_lt _
    · exact h o ho
  -- every other step keeps the labels
  all_goals
    rename_i ih
    exact ih h

/-! ## §5. Label names -/

/-- Two label names are equal only for one kind at one address. -/
theorem LabelKind.name_inj {k k' : LabelKind} {a a' : UInt32} (h : k.name a = k'.name a') :
    k = k' ∧ a = a' := by
  -- the prefixes tell the kinds apart, and the hex digits read back as the address
  have hhex : ∀ b b' : UInt32,
      (Text.upperHex 4 b.toNat).toList = (Text.upperHex 4 b'.toNat).toList → b = b' := by
    intro b b' hb
    have hv := congrArg Lexeme.hexValue hb
    rw [Text.hexValue_upperHex, Text.hexValue_upperHex] at hv
    exact UInt32.toNat_inj.mp hv
  have hl := congrArg String.toList h
  cases k <;> cases k' <;> simp [LabelKind.name] at hl ⊢ <;> exact hhex a a' hl

/-! ## §6. The parts of a listing -/

/-- The code marks and the labels of a listing: linear marks and no labels, or what the flow
search found. -/
def marks (code : List UInt8) (base : UInt32) (opts : ListingOptions) :
    Array Bool × Array (Option LabelKind) :=
  let sw := sweep code base
  if opts.linear then
    (linearMarks sw 0 (Array.replicate sw.size false), Array.replicate sw.size none)
  else
    let fl := flow sw base
    (fl.reached, fl.labels)

/-- The instruction a listing prints at an offset: the sweep's, where the offset is code. -/
def codeAt (code : List UInt8) (base : UInt32) (opts : ListingOptions) (o : Nat) :
    Option Instruction :=
  if (marks code base opts).1[o]?.getD false then instrAt (sweep code base) o else none

/-- The pieces of a listing. -/
def pieces (code : List UInt8) (base : UInt32) (opts : ListingOptions) : List Piece :=
  plan code (codeAt code base opts) 0

/-- The offsets a listing marks as written, by its second walk. -/
def written (code : List UInt8) (base : UInt32) (opts : ListingOptions) : Array Bool :=
  renderStarts (codeAt code base opts) code.length 0 (Array.replicate code.length false)

/-- The label whose line stands at an offset: only where the listing marks an instruction as
written. -/
def labelAt (code : List UInt8) (base : UInt32) (opts : ListingOptions) (o : Nat) :
    Option LabelKind :=
  if (written code base opts)[o]?.getD false then
    (marks code base opts).2[o]?.bind id
  else none

section Parts

variable {code : List UInt8} {base : UInt32} {opts : ListingOptions}

/-- An instruction a listing prints is the sweep's at an even offset marked code, and it
ends inside the buffer. -/
theorem codeAt_eq_some {o : Nat} {i : Instruction} (h : codeAt code base opts o = some i) :
    (marks code base opts).1[o]?.getD false = true ∧ o % 2 = 0 ∧
      Instruction.decode (code.drop o) (base + o.toUInt32) = .ok i ∧ o + i.size ≤ code.length := by
  unfold codeAt at h
  split_ifs at h with hm
  obtain ⟨hev, hlt, hdec⟩ := instrAt_sweep h
  have hsz := (Instruction.bytes_of_decode hdec).2
  simp only [List.length_drop] at hsz
  exact ⟨hm, hev, hdec, by omega⟩

/-- The labels of a listing stand at offsets below 2^32. -/
theorem marks_labels_lt {o : Nat} {k : LabelKind}
    (h : (marks code base opts).2[o]?.bind id = some k) : o < 2 ^ 32 := by
  unfold marks at h
  split_ifs at h
  · -- linear marking labels nothing
    simp only [Array.getElem?_replicate] at h
    split at h <;> simp at h
  · -- the flow search starts with no label
    refine labels_explore_lt (fun o ho => ?_) o (by unfold flow at h; rw [h]; rfl)
    simp only [Array.getElem?_replicate] at ho
    split at ho <;> simp at ho

/-- **The offsets a listing marks as written are exactly the starts of its printed
instructions.** -/
theorem written_iff (o : Nat) :
    (written code base opts)[o]?.getD false = true ↔ ∃ i, .code o i ∈ pieces code base opts := by
  rw [written, renderStarts_eq_starts, starts_iff]
  constructor
  · exact fun h => h.2
  · rintro ⟨i, hi⟩
    -- a printed instruction ends inside the buffer, so its start is inside too
    have hsz := (codeAt_eq_some (code_mem_plan hi)).2.2.2
    have := i.size_pos
    exact ⟨by omega, i, hi⟩

/-- A label line stands only before a printed instruction, at an offset below 2^32. -/
theorem labelAt_eq_some {o : Nat} {k : LabelKind} (h : labelAt code base opts o = some k) :
    (∃ i, .code o i ∈ pieces code base opts) ∧ o < 2 ^ 32 := by
  unfold labelAt at h
  split_ifs at h with hw
  exact ⟨(written_iff o).mp hw, marks_labels_lt h⟩

end Parts

end C166Codec.Listing

namespace C166Codec

/-- A listing prints the pieces of its buffer, with the label lines of `Listing.labelAt`. -/
theorem disassemble_eq (code : List UInt8) (base : UInt32) (opts : ListingOptions) :
    disassemble code base opts =
      if code.isEmpty then ""
      else Listing.printPieces (Listing.labelAt code base opts) base ⟨1, ⟨opts.extended, 0⟩⟩
        (Listing.pieces code base opts) := by
  rfl

open Listing in
/-- The listing of any buffer, at any base and with any options, prints its pieces in order.
The pieces cover the buffer's offsets one after another, at strictly increasing starts. A
printed instruction is the one decoded at an even offset marked code and ends inside the
buffer. A data run holds the buffer's bytes, covers no code offset and ends at the end or
where an instruction is printed. The second walk over the code offsets (`renderStarts`)
marks exactly the printed instructions' starts. A label line stands only before a printed instruction, and the label that a branch
to `t` names stands at `t`'s offset, where no other label line has that name. -/
theorem disassemble_wellFormed (code : List UInt8) (base : UInt32) (opts : ListingOptions) :
    disassemble code base opts =
        (if code.isEmpty then ""
        else printPieces (labelAt code base opts) base ⟨1, ⟨opts.extended, 0⟩⟩
          (pieces code base opts)) ∧
      (pieces code base opts).flatMap Piece.offsets = List.range code.length ∧
      (pieces code base opts).Pairwise (fun p q => p.start < q.start) ∧
      (∀ s i, .code s i ∈ pieces code base opts →
        s % 2 = 0 ∧ (marks code base opts).1[s]?.getD false = true ∧
          Instruction.decode (code.drop s) (base + s.toUInt32) = .ok i ∧
          s + i.size ≤ code.length) ∧
      (∀ s bytes, .data s bytes ∈ pieces code base opts →
        bytes = (code.drop s).take bytes.length ∧ 0 < bytes.length ∧
          (∀ o, s ≤ o → o < s + bytes.length → codeAt code base opts o = none) ∧
          (s + bytes.length = code.length ∨
            ∃ i, .code (s + bytes.length) i ∈ pieces code base opts)) ∧
      (∀ o, (renderStarts (codeAt code base opts) code.length 0
          (Array.replicate code.length false))[o]?.getD false = true ↔
        ∃ i, .code o i ∈ pieces code base opts) ∧
      (∀ o k, labelAt code base opts o = some k → ∃ i, .code o i ∈ pieces code base opts) ∧
      (∀ s i t k, .code s i ∈ pieces code base opts → i.branch.target = some t → base ≤ t →
        labelAt code base opts (t - base).toNat = some k →
        base + (t - base).toNat.toUInt32 = t ∧
          (∃ j, .code (t - base).toNat j ∈ pieces code base opts) ∧
          ∀ s' i' k', .code s' i' ∈ pieces code base opts → labelAt code base opts s' = some k' →
            k'.name (base + s'.toUInt32) = k.name t → s' = (t - base).toNat ∧ k' = k) := by
  have hfit : ∀ o i, codeAt code base opts o = some i → o + i.size ≤ code.length :=
    fun _ _ h => (codeAt_eq_some h).2.2.2
  refine ⟨disassemble_eq code base opts, ?_, pairwise_start_plan 0, ?_,
    fun _ _ h => data_mem_plan h, written_iff, fun _ _ h => (labelAt_eq_some h).1, ?_⟩
  · rw [pieces, flatMap_offsets_plan hfit, List.range_eq_range', Nat.sub_zero]
  · intro s i h
    obtain ⟨hm, hev, hdec, hsz⟩ := codeAt_eq_some (code_mem_plan h)
    exact ⟨hev, hm, hdec, hsz⟩
  · intro s i t k _ _ hbase hk
    have haddr : base + (t - base).toNat.toUInt32 = t := by
      rw [Nat.toUInt32, UInt32.ofNat_toNat]
      exact add_sub_cancel base t
    refine ⟨haddr, (labelAt_eq_some hk).1, fun s' i' k' _ hk' hname => ?_⟩
    -- the names agree only for one kind at one address, and `s'` is below 2^32
    obtain ⟨rfl, ha⟩ := LabelKind.name_inj hname
    have hs' : s' < 2 ^ 32 := (labelAt_eq_some hk').2
    have hsub : s'.toUInt32 = t - base := by
      rw [← ha]
      simp
    refine ⟨?_, rfl⟩
    rw [← hsub]
    simp only [Nat.toUInt32, UInt32.toNat_ofNat']
    exact (Nat.mod_eq_of_lt hs').symm

end C166Codec
