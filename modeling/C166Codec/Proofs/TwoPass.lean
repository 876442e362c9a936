import Mathlib
import C166Codec.Source.Program
import C166Codec.Proofs.FirstPass
/-!
# The two passes of assembly agree on sizes

`assemble` sizes every line in a first pass, with the labels bound so far, and writes the
bytes in a second pass, with all labels bound. The second pass stops with
`AssemblyFailure.sizeChanged` if a line's bytes differ in number from its size in the first.

Main statement, `assemble_sizes_stable`: that never happens. When assembly succeeds, its bytes
are the lines' bytes one after another, each line writing the size the first pass recorded,
and every label is bound to the base address plus the number of bytes written before it.

The proof follows the lines of the program with one inversion lemma for the sizing pass
(`Program.sizes_cons`, stated through `Program.SizeStep`) and:

* for a directive, the bytes written have the size computed without labels
  (`Directive.length_generate`);
* for an instruction, both passes write the same number of bytes
  (`encodeIn_length_relax`), as the first pass's labels are the second pass's labels of the
  lines before (`Program.lookup_sizes`).
-/

namespace C166Codec

/-! ## §1. Directives -/

theorem ByteArray.length_toList_loop (bs : ByteArray) (i : Nat) (r : List UInt8) :
    (ByteArray.toList.loop bs i r).length = r.length + (bs.size - i) := by
  fun_induction ByteArray.toList.loop bs i r with
  | case1 i r h ih => rw [ih]; simp; omega
  | case2 i r h => simp; omega

theorem ByteArray.length_toList (bs : ByteArray) : bs.toList.length = bs.size := by
  simp [ByteArray.toList, ByteArray.length_toList_loop]

namespace Directive

theorem length_item_db {labels : List (String × UInt32)} {a : String} {b : List UInt8}
    (h : item .db labels a = .ok b) : b.length = ((quoted? a).map String.utf8ByteSize).getD 1 := by
  unfold item at h
  cases hq : quoted? a with
  | some s =>
    simp only [hq, if_true, Except.ok.injEq] at h
    subst h
    simp [ByteArray.length_toList]
  | none =>
    simp only [hq] at h
    cases hc : constant labels a with
    | error e => simp [hc] at h
    | ok v =>
      simp only [hc, if_true] at h
      split_ifs at h
      cases h
      rfl

theorem length_item_dw {labels : List (String × UInt32)} {a : String} {b : List UInt8}
    (h : item .dw labels a = .ok b) : b.length = 2 := by
  unfold item at h
  cases hq : quoted? a with
  | some s => simp [hq] at h
  | none =>
    simp only [hq] at h
    cases hc : constant labels a with
    | error e => simp [hc] at h
    | ok v =>
      simp only [hc, reduceCtorEq, if_false] at h
      split_ifs at h
      cases h
      rfl

theorem length_items_db {labels : List (String × UInt32)} {args : List String} {b : List UInt8}
    (h : items .db labels args = .ok b) (n : Nat) :
    n + b.length = args.foldl (fun n a => n + ((quoted? a).map String.utf8ByteSize).getD 1) n := by
  induction args generalizing b n with
  | nil =>
    simp only [items, Except.ok.injEq] at h
    subst h
    simp
  | cons a rest ih =>
    unfold items at h
    cases ha : item .db labels a with
    | error e => simp [ha] at h
    | ok ba =>
      simp only [ha] at h
      obtain ⟨br, hr, rfl⟩ := Except.map_eq_ok h
      rw [List.foldl_cons, ← ih hr, ← length_item_db ha, List.length_append]
      omega

theorem length_items_dw {labels : List (String × UInt32)} {args : List String} {b : List UInt8}
    (h : items .dw labels args = .ok b) : b.length = 2 * args.length := by
  induction args generalizing b with
  | nil =>
    simp only [items, Except.ok.injEq] at h
    subst h
    rfl
  | cons a rest ih =>
    unfold items at h
    cases ha : item .dw labels a with
    | error e => simp [ha] at h
    | ok ba =>
      simp only [ha] at h
      obtain ⟨br, hr, rfl⟩ := Except.map_eq_ok h
      rw [List.length_append, length_item_dw ha, ih hr, List.length_cons]
      omega

/-- A directive writes as many bytes as its size said, whatever the labels. -/
theorem length_generate {d : Directive} {args : List String} {pc : UInt32}
    {labels : List (String × UInt32)} {s : Nat} {b : List UInt8}
    (hs : d.size args pc = .ok s) (hg : d.generate args pc labels = .ok b) : b.length = s := by
  cases d
  case even =>
    simp only [size] at hs
    split_ifs at hs
    cases hs
    simp only [generate, Except.ok.injEq] at hg
    subst hg
    simp
  case db =>
    simp only [size, Except.ok.injEq] at hs
    subst hs
    simp only [generate] at hg
    split_ifs at hg
    simpa using length_items_db hg 0
  case dw =>
    simp only [size, Except.ok.injEq] at hs
    subst hs
    simp only [generate] at hg
    split_ifs at hg
    exact length_items_dw hg

end Directive

/-! ## §2. The sizing pass -/

namespace Program

/-- One node of the sizing pass: its size, and the labels and the ext window after it. -/
inductive SizeStep (pc : UInt32) (L : List (String × UInt32)) (w : SourceWindow) :
    Item → Nat → List (String × UInt32) → SourceWindow → Prop
  | label (l : String) : L.lookup l = none → SizeStep pc L w (.label l) 0 (L ++ [(l, pc)]) w
  | directive (d : Directive) (args : List String) (s : Nat) :
      d.size args pc = .ok s → SizeStep pc L w (.directive d args) s L w.close
  | instruction (mn : String) (ops : List Operand) (b : List UInt8) :
      encodeIn mn ops ⟨pc, L, true, w.active⟩ = .ok b →
      SizeStep pc L w (.instruction mn ops) b.length L (w.step mn ops)

variable {pc : UInt32} {L Lf : List (String × UInt32)} {w : SourceWindow}

/-- What a successful sizing pass did at its first node. -/
theorem sizes_cons {n : Node} {rest : List Node} {ss : List Nat}
    (h : sizes pc L w (n :: rest) = .ok (Lf, ss)) :
    ∃ s ss' L' w', SizeStep pc L w n.item s L' w' ∧ ss = s :: ss' ∧
      sizes (pc + s.toUInt32) L' w' rest = .ok (Lf, ss') := by
  unfold sizes at h
  split at h
  · rename_i l hl
    split at h
    · cases h
    · rename_i hnone
      obtain ⟨⟨Lr, sr⟩, hr, hrr⟩ := Except.map_eq_ok h
      simp only [Prod.mk.injEq] at hrr
      obtain ⟨rfl, rfl⟩ := hrr
      refine ⟨0, sr, _, _, hl ▸ SizeStep.label l (Option.not_isSome_iff_eq_none.mp hnone), rfl, by simpa using hr⟩
  · rename_i d args hd
    split at h
    · cases h
    · rename_i s hs
      obtain ⟨⟨Lr, sr⟩, hr, hrr⟩ := Except.map_eq_ok h
      simp only [Prod.mk.injEq] at hrr
      obtain ⟨rfl, rfl⟩ := hrr
      exact ⟨s, sr, _, _, hd ▸ SizeStep.directive d args s hs, rfl, hr⟩
  · rename_i mn ops hi
    split at h
    · cases h
    · rename_i b hb
      obtain ⟨⟨Lr, sr⟩, hr, hrr⟩ := Except.map_eq_ok h
      simp only [Prod.mk.injEq] at hrr
      obtain ⟨rfl, rfl⟩ := hrr
      exact ⟨b.length, sr, _, _, hi ▸ SizeStep.instruction mn ops b hb, rfl, hr⟩

/-- The sizing pass keeps the labels it starts with and binds new ones after them. -/
theorem sizes_labels {ns : List Node} {ss : List Nat} (h : sizes pc L w ns = .ok (Lf, ss)) :
    ∃ M, Lf = L ++ M := by
  induction ns generalizing pc L w ss with
  | nil =>
    simp only [sizes, Except.ok.injEq, Prod.mk.injEq] at h
    exact ⟨[], by simp [h.1]⟩
  | cons n rest ih =>
    obtain ⟨s, ss', L', w', hstep, -, hrest⟩ := sizes_cons h
    obtain ⟨M, rfl⟩ := ih hrest
    generalize n.item = it at hstep
    cases hstep with
    | label l _ => exact ⟨[(l, pc)] ++ M, by simp⟩
    | directive => exact ⟨M, rfl⟩
    | instruction => exact ⟨M, rfl⟩

/-- A label known before a sizing pass keeps its address to the end of it. -/
theorem lookup_sizes {ns : List Node} {ss : List Nat} (h : sizes pc L w ns = .ok (Lf, ss))
    {l : String} {t : UInt32} (hl : L.lookup l = some t) : Lf.lookup l = some t := by
  obtain ⟨M, rfl⟩ := sizes_labels h
  simp [List.lookup_append, hl]

/-- The sizing pass binds the label of node `i` to the start address plus the sizes of the
nodes before it. -/
theorem sizes_lookup {ns : List Node} {ss : List Nat} (h : sizes pc L w ns = .ok (Lf, ss))
    {i : Nat} (hi : i < ns.length) {l : String} (hl : ns[i].item = .label l) :
    Lf.lookup l = some (pc + ((ss.take i).sum).toUInt32) := by
  induction ns generalizing pc L w ss i with
  | nil => simp at hi
  | cons n rest ih =>
    obtain ⟨s, ss', L', w', hstep, rfl, hrest⟩ := sizes_cons h
    cases i with
    | zero =>
      -- the label of the first node: it was unbound, and is bound now to `pc`
      simp only [List.getElem_cons_zero] at hl
      rw [hl] at hstep
      cases hstep with
      | label _ hnone =>
        obtain ⟨M, rfl⟩ := sizes_labels hrest
        simp [List.lookup_append, hnone]
    | succ j =>
      have := ih hrest (by simpa using hi) (by simpa using hl)
      rw [this, List.take_succ_cons, List.sum_cons]
      simp [UInt32.add_assoc]

/-! ## §3. The emitting pass -/

/-- The emitting pass, run with every label of a successful sizing pass at its address,
either stops at a line that cannot be encoded or writes, node by node, exactly the sizes the
sizing pass recorded. -/
theorem emit_of_sizes {ns : List Node} {ss : List Nat} {F : List (String × UInt32)}
    (h : sizes pc L w ns = .ok (Lf, ss)) (hF : ∀ l t, Lf.lookup l = some t → F.lookup l = some t) :
    (∃ e, emit pc F w ns ss = .error (.line e)) ∨
      ∃ chunks : List (List UInt8), emit pc F w ns ss = .ok chunks.flatten ∧
        chunks.map List.length = ss := by
  induction ns generalizing pc L w ss with
  | nil =>
    simp only [sizes, Except.ok.injEq, Prod.mk.injEq] at h
    exact .inr ⟨[], by simp [emit], by simp [← h.2]⟩
  | cons n rest ih =>
    obtain ⟨s, ss', L', w', hstep, rfl, hrest⟩ := sizes_cons h
    -- the rest of the pass, once this node has written `b` of the recorded size
    have next : ∀ b : List UInt8, b.length = s →
        (∃ e, (emit (pc + s.toUInt32) F w' rest ss').map (b ++ ·) = .error (.line e)) ∨
          ∃ chunks : List (List UInt8),
            (emit (pc + s.toUInt32) F w' rest ss').map (b ++ ·) = .ok chunks.flatten ∧
              chunks.map List.length = s :: ss' := by
      intro b hb
      rcases ih hrest with ⟨e, he⟩ | ⟨chunks, he, hlen⟩
      · exact .inl ⟨e, by simp [he, Except.map]⟩
      · exact .inr ⟨b :: chunks, by simp [he, Except.map], by simp [hb, hlen]⟩
    generalize hit : n.item = it at hstep
    cases hstep with
    | label l _ =>
      rcases ih hrest with ⟨e, he⟩ | ⟨chunks, he, hlen⟩
      · exact .inl ⟨e, by simpa [emit, hit] using he⟩
      · exact .inr ⟨[] :: chunks, by simpa [emit, hit] using he, by simp [hlen]⟩
    | directive d args s hs =>
      simp only [emit, hit]
      split
      · exact .inl ⟨_, rfl⟩
      · rename_i b hb
        rw [if_neg (by simp [Directive.length_generate hs hb])]
        exact next b (Directive.length_generate hs hb)
    | instruction mn ops b' hb' =>
      simp only [emit, hit]
      split
      · exact .inl ⟨_, rfl⟩
      · rename_i b hb
        -- the sizing pass read the operands laxly, with the labels bound so far
        have hc : Context.Relaxes ⟨pc, F, false, w.active⟩ ⟨pc, L, true, w.active⟩ :=
          ⟨rfl, rfl, rfl, fun l t hl => hF l t (lookup_sizes h hl)⟩
        have hlen := encodeIn_length_relax hc hb hb'
        rw [if_neg (by simp [hlen])]
        exact next b hlen

end Program

/-! ## §4. Assembly -/

/-- **Assembly never stops because a line changed size between its passes**: the emitting pass
writes every line in the size that the sizing pass recorded for it. -/
theorem assemble_ne_sizeChanged (src : String) (base : UInt32) (n : Nat) :
    (assemble src base).result ≠ .error (.sizeChanged n) := by
  unfold assemble
  split
  · simp
  · split
    · simp
    · rename_i labels ss hsizes
      rcases Program.emit_of_sizes hsizes (fun _ _ h => h) with ⟨e, he⟩ | ⟨chunks, he, -⟩ <;>
        simp [he]

/-- Assembly never stops because a line changed size between its passes. When it succeeds,
its bytes are the lines' bytes one after another, each line writing the size the sizing pass
recorded for it, and every label is bound to the base address plus the number of bytes
written before its line (modulo 2^32). -/
theorem assemble_sizes_stable (src : String) (base : UInt32) :
    (∀ n, (assemble src base).result ≠ .error (.sizeChanged n)) ∧
    ∀ code, (assemble src base).result = .ok code →
      ∃ (nodes : List Node) (chunks : List (List UInt8)), Program.parseLines 1 (Statement.lines src.toList) = .ok nodes ∧
        Program.sizes base [] {} nodes =
          .ok ((assemble src base).labels, chunks.map List.length) ∧
        code = chunks.flatten ∧ code.length = (chunks.map List.length).sum ∧
        ∀ i (hi : i < nodes.length) l, nodes[i].item = .label l →
          (assemble src base).labels.lookup l =
            some (base + (chunks.take i).flatten.length.toUInt32) := by
  refine ⟨assemble_ne_sizeChanged src base, ?_⟩
  unfold assemble
  split
  · simp
  · rename_i nodes hparse
    split
    · simp
    · rename_i labels ss hsizes
      rcases Program.emit_of_sizes hsizes (fun _ _ h => h) with ⟨e, he⟩ | ⟨chunks, he, hlen⟩
      · simp [he]
      · simp only [he, Except.ok.injEq]
        rintro code rfl
        refine ⟨nodes, chunks, hparse, hlen ▸ hsizes, rfl, List.length_flatten, ?_⟩
        intro i hi l hl
        rw [Program.sizes_lookup hsizes hi hl, ← hlen, ← List.map_take, List.length_flatten]

/-- A forward jump: `jmpr cc_uc, fwd` before `fwd: nop` is sized with `fwd` unknown and
written with `fwd` at 2, as `0D 00 CC 00`, and the passes agree on every line. -/
theorem forward_jump_sizes_stable :
    ∃ (nodes : List Node) (chunks : List (List UInt8)),
      Program.parseLines 1 (Statement.lines "    jmpr cc_uc, fwd\nfwd: nop\n".toList) = .ok nodes ∧
      Program.sizes 0 [] {} nodes =
        .ok ((assemble "    jmpr cc_uc, fwd\nfwd: nop\n" 0).labels, chunks.map List.length) ∧
      [0x0D, 0x00, 0xCC, 0x00] = chunks.flatten ∧
      ([0x0D, 0x00, 0xCC, 0x00] : List UInt8).length = (chunks.map List.length).sum ∧
      ∀ i (hi : i < nodes.length) l, nodes[i].item = .label l →
        (assemble "    jmpr cc_uc, fwd\nfwd: nop\n" 0).labels.lookup l =
          some (0 + (chunks.take i).flatten.length.toUInt32) := by
  have hres : (assemble "    jmpr cc_uc, fwd\nfwd: nop\n" 0).result = .ok [0x0D, 0x00, 0xCC, 0x00] := by
    have h : (assemble "    jmpr cc_uc, fwd\nfwd: nop\n" 0).result.toOption =
        some [0x0D, 0x00, 0xCC, 0x00] := by
      decide +kernel
    revert h
    cases (assemble "    jmpr cc_uc, fwd\nfwd: nop\n" 0).result <;> simp [Except.toOption]
  exact (assemble_sizes_stable _ 0).2 _ hres

end C166Codec
