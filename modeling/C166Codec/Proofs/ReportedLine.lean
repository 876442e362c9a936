import C166Codec.Proofs.CaseBlind
import C166Codec.Proofs.TwoPass
/-!
# The line an assembly error reports

`assemble` reads a program in three passes over its lines, which end at every line feed and
every NUL. It parses every line, then sizes every node with the labels bound so far, then
writes every node with all labels known. Each pass stops at its own first failure. So the line
reported is the first failing line of the first pass that fails, which need not be the first
failing line of the program: a later line that cannot be parsed is reported before an earlier
line that names an undefined label (`parse_failure_reported_before_earlier_line`).

Main statement, `assemble_reports_first_failing_line`: assembly fails with a line error exactly
when some line fails in some pass (`Program.LineFault`). The line it reports is the smallest
line that fails in the earliest pass in which any line fails, and its text is that line
without the carriage returns before its end.

* §1 the parsing pass: the first line that cannot be read, and the nodes of lines that can,
  numbered in order;
* §2 the sizing pass as a run over the nodes (`SizeRun`), what makes a node fail it
  (`SizeFault`), and positions the run reaches (`Reaches`, `FirstReached`);
* §3 the emitting pass, whose nodes are written at the states of the sizing run
  (`EmitFault`);
* §4 the reported line.
-/

namespace C166Codec

namespace Program

/-! ## §1. The parsing pass -/

/-- Two lists that agree up to two positions agree up to the earlier one: the longer prefix
continues the shorter one by its next element. -/
theorem exists_of_append_cons_eq {α : Type} {xs ys zs ws : List α} {x y : α}
    (h : xs ++ x :: ys = zs ++ y :: ws) (hlt : xs.length < zs.length) :
    ∃ us, zs = xs ++ x :: us := by
  rcases List.append_eq_append_iff.mp h with ⟨a', rfl, ha⟩ | ⟨c', rfl, -⟩
  · cases a' with
    | nil => simp at hlt
    | cons b us =>
      simp only [List.cons_append, List.cons.injEq] at ha
      exact ⟨us, by rw [ha.1]⟩
  · simp at hlt

/-- The parsing pass stops at the first line that cannot be read, numbered from `n`. -/
theorem parseLines_eq_error {n : Nat} {ls : List (List Char)} {e : LineError}
    (h : parseLines n ls = .error e) :
    ∃ ls₁ l ls₂ err, ls = ls₁ ++ l :: ls₂ ∧ (∀ l' ∈ ls₁, ∃ st, Statement.parse l' = .ok st) ∧
      Statement.parse l = .error err ∧ e = ⟨n + ls₁.length, lineText l, err⟩ := by
  induction ls generalizing n with
  | nil => cases h
  | cons l rest ih =>
    simp only [parseLines] at h
    split at h
    · rename_i err herr
      cases h
      exact ⟨[], l, rest, err, rfl, by simp, herr, by simp⟩
    · rename_i st hst
      -- this line is read: the failure is further on
      cases hr : parseLines (n + 1) rest with
      | ok ns => simp [hr, Except.map] at h
      | error e' =>
        simp only [hr, Except.map, Except.error.injEq] at h
        subst h
        obtain ⟨ls₁, l', ls₂, err, rfl, hok, herr, rfl⟩ := ih hr
        refine ⟨l :: ls₁, l', ls₂, err, rfl, ?_, herr, ?_⟩
        · intro x hx
          rcases List.mem_cons.mp hx with rfl | hx
          · exact ⟨st, hst⟩
          · exact hok x hx
        · simp only [List.length_cons, LineError.mk.injEq, and_true]
          omega

/-- What the parsing pass does with a line it reads: its nodes, then those of the lines after. -/
theorem parseLines_cons_ok {n : Nat} {l : List Char} {rest : List (List Char)} {nodes : List Node}
    (h : parseLines n (l :: rest) = .ok nodes) :
    ∃ st ns, Statement.parse l = .ok st ∧ parseLines (n + 1) rest = .ok ns ∧
      nodes = (items st).map (⟨n, lineText l, ·⟩) ++ ns := by
  simp only [parseLines] at h
  split at h
  · cases h
  · rename_i st hst
    cases hr : parseLines (n + 1) rest with
    | error e => simp [hr, Except.map] at h
    | ok ns =>
      simp only [hr, Except.map, Except.ok.injEq] at h
      exact ⟨st, ns, hst, rfl, h.symm⟩

/-- When the parsing pass succeeds, every line can be read. -/
theorem parse_of_parseLines {n : Nat} {ls : List (List Char)} {nodes : List Node}
    (h : parseLines n ls = .ok nodes) : ∀ l ∈ ls, ∃ st, Statement.parse l = .ok st := by
  induction ls generalizing n nodes with
  | nil => simp
  | cons l rest ih =>
    obtain ⟨st, ns, hst, hr, -⟩ := parseLines_cons_ok h
    intro x hx
    rcases List.mem_cons.mp hx with rfl | hx
    · exact ⟨st, hst⟩
    · exact ih hr x hx

/-- Every node carries the number of its line, counted from `n`, and that line's text. -/
theorem mem_parseLines {n : Nat} {ls : List (List Char)} {nodes : List Node}
    (h : parseLines n ls = .ok nodes) {x : Node} (hx : x ∈ nodes) :
    n ≤ x.line ∧ ∃ l, ls[x.line - n]? = some l ∧ x.text = lineText l := by
  induction ls generalizing n nodes with
  | nil =>
    simp only [parseLines, Except.ok.injEq] at h
    subst h
    cases hx
  | cons l rest ih =>
    obtain ⟨st, ns, -, hr, rfl⟩ := parseLines_cons_ok h
    rcases List.mem_append.mp hx with hx | hx
    · -- a node of this line
      obtain ⟨it, -, rfl⟩ := List.mem_map.mp hx
      exact ⟨le_refl n, l, by simp, rfl⟩
    · -- a node of a later line
      obtain ⟨hle, l', hl', htext⟩ := ih hr hx
      refine ⟨by omega, l', ?_, htext⟩
      rw [show x.line - n = x.line - (n + 1) + 1 by omega, List.getElem?_cons_succ]
      exact hl'

/-- The nodes come in the order of their lines. -/
theorem parseLines_sorted {n : Nat} {ls : List (List Char)} {nodes : List Node}
    (h : parseLines n ls = .ok nodes) : nodes.Pairwise fun a b => a.line ≤ b.line := by
  induction ls generalizing n nodes with
  | nil =>
    simp only [parseLines, Except.ok.injEq] at h
    subst h
    exact List.Pairwise.nil
  | cons l rest ih =>
    obtain ⟨st, ns, -, hr, rfl⟩ := parseLines_cons_ok h
    refine List.pairwise_append.mpr ⟨?_, ih hr, ?_⟩
    · -- the nodes of one line share its number
      exact List.pairwise_map.mpr (List.pairwise_of_forall fun _ _ => le_refl n)
    · intro a ha b hb
      obtain ⟨it, -, rfl⟩ := List.mem_map.mp ha
      exact Nat.le_of_succ_le (mem_parseLines hr hb).1

/-- In a list sorted by line, a node at an earlier position has no larger line. -/
theorem line_le_of_length_le {nodes ns₁ ns₂ ms₁ ms₂ : List Node} {n m : Node}
    (hs : nodes.Pairwise fun a b => a.line ≤ b.line) (hn : nodes = ns₁ ++ n :: ns₂)
    (hm : nodes = ms₁ ++ m :: ms₂) (hle : ns₁.length ≤ ms₁.length) : n.line ≤ m.line := by
  rcases Nat.lt_or_eq_of_le hle with hlt | heq
  · obtain ⟨us, rfl⟩ := exists_of_append_cons_eq (hn.symm.trans hm) hlt
    rw [hm, List.append_assoc, List.cons_append] at hs
    have hcons := (List.pairwise_append.mp hs).2.1
    exact List.rel_of_pairwise_cons hcons (by simp)
  · have hsplit := List.append_inj (hn.symm.trans hm) heq
    rw [(List.cons.inj hsplit.2).1]

/-! ## §2. The sizing pass -/

/-- How a node fails the sizing pass: a label bound before, a directive that cannot be sized,
or an instruction that no opcode encodes with the labels bound so far (a later label standing
for a placeholder). -/
inductive SizeFault (pc : UInt32) (L : List (String × UInt32)) (w : SourceWindow) :
    Item → SourceError → Prop
  | duplicate (l : String) (t : UInt32) : L.lookup l = some t →
      SizeFault pc L w (.label l) (.syntaxFault (.duplicateLabel l))
  | directive (d : Directive) (args : List String) (f : SyntaxFault) :
      d.size args pc = .error f → SizeFault pc L w (.directive d args) (.syntaxFault f)
  | instruction (mn : String) (ops : List Operand) (e : SourceError) :
      encodeIn mn ops ⟨pc, L, true, w.active⟩ = .error e →
      SizeFault pc L w (.instruction mn ops) e

/-- The sizing pass gets through the nodes `ns`, from the address, labels and window it starts
with to those it ends with. -/
inductive SizeRun : UInt32 → List (String × UInt32) → SourceWindow → List Node →
    UInt32 → List (String × UInt32) → SourceWindow → Prop
  | nil (pc : UInt32) (L : List (String × UInt32)) (w : SourceWindow) : SizeRun pc L w [] pc L w
  | cons {pc : UInt32} {L : List (String × UInt32)} {w : SourceWindow} {n : Node} {s : Nat}
      {L' : List (String × UInt32)} {w' : SourceWindow} {rest : List Node} {pc'' : UInt32}
      {L'' : List (String × UInt32)} {w'' : SourceWindow} :
      SizeStep pc L w n.item s L' w' → SizeRun (pc + s.toUInt32) L' w' rest pc'' L'' w'' →
      SizeRun pc L w (n :: rest) pc'' L'' w''

variable {pc : UInt32} {L : List (String × UInt32)} {w : SourceWindow}

/-- A step of the sizing pass is determined by its state and node. -/
theorem SizeStep.eq {it : Item} {s s₂ : Nat} {L' L₂ : List (String × UInt32)}
    {w' w₂ : SourceWindow} (h₁ : SizeStep pc L w it s L' w') (h₂ : SizeStep pc L w it s₂ L₂ w₂) :
    s = s₂ ∧ L' = L₂ ∧ w' = w₂ := by
  cases h₁ with
  | label => cases h₂; exact ⟨rfl, rfl, rfl⟩
  | directive _ _ _ hs => cases h₂ with
    | directive _ _ _ hs₂ => simp_all
  | instruction _ _ _ hb => cases h₂ with
    | instruction _ _ _ hb₂ => simp_all

/-- A node the sizing pass steps over does not fail it. -/
theorem SizeStep.not_fault {it : Item} {s : Nat} {L' : List (String × UInt32)}
    {w' : SourceWindow} {err : SourceError} (h : SizeStep pc L w it s L' w') :
    ¬SizeFault pc L w it err := by
  intro hf
  cases h with
  | label _ hnone => cases hf with
    | duplicate _ _ hsome => simp_all
  | directive _ _ _ hs => cases hf with
    | directive _ _ _ hf => simp_all
  | instruction _ _ _ hb => cases hf with
    | instruction _ _ _ hf => simp_all

/-- At every node the sizing pass either steps or fails. -/
theorem sizeStep_or_fault (pc : UInt32) (L : List (String × UInt32)) (w : SourceWindow)
    (it : Item) : (∃ s L' w', SizeStep pc L w it s L' w') ∨ ∃ err, SizeFault pc L w it err := by
  cases it with
  | label l =>
    cases h : L.lookup l with
    | none => exact .inl ⟨_, _, _, .label l h⟩
    | some t => exact .inr ⟨_, .duplicate l t h⟩
  | directive d args =>
    cases h : d.size args pc with
    | ok s => exact .inl ⟨_, _, _, .directive d args s h⟩
    | error f => exact .inr ⟨_, .directive d args f h⟩
  | instruction mn ops =>
    cases h : encodeIn mn ops ⟨pc, L, true, w.active⟩ with
    | ok b => exact .inl ⟨_, _, _, .instruction mn ops b h⟩
    | error e => exact .inr ⟨_, .instruction mn ops e h⟩

/-- The sizing pass over a node it steps over. -/
theorem sizes_cons_of_step {n : Node} {rest : List Node} {s : Nat} {L' : List (String × UInt32)}
    {w' : SourceWindow} (hs : SizeStep pc L w n.item s L' w') :
    sizes pc L w (n :: rest) = (sizes (pc + s.toUInt32) L' w' rest).map fun r => (r.1, s :: r.2) := by
  generalize hit : n.item = it at hs
  cases hs with
  | label l hnone => simp [sizes, hit, hnone]
  | directive d args s hs => simp [sizes, hit, hs]
  | instruction mn ops b hb => simp [sizes, hit, hb]

/-- The sizing pass over a node that fails it stops there, with the labels bound before it. -/
theorem sizes_cons_of_fault {n : Node} {rest : List Node} {err : SourceError}
    (hf : SizeFault pc L w n.item err) :
    sizes pc L w (n :: rest) = .error (⟨n.line, n.text, err⟩, L) := by
  generalize hit : n.item = it at hf
  cases hf with
  | duplicate l t hsome => simp [sizes, hit, hsome]
  | directive d args f hf => simp [sizes, hit, hf]
  | instruction mn ops e he => simp [sizes, hit, he]

/-- A run is determined by its start and its nodes. -/
theorem SizeRun.eq {ns : List Node} {pc₁ pc₂ : UInt32} {L₁ L₂ : List (String × UInt32)}
    {w₁ w₂ : SourceWindow} (h₁ : SizeRun pc L w ns pc₁ L₁ w₁) (h₂ : SizeRun pc L w ns pc₂ L₂ w₂) :
    pc₁ = pc₂ ∧ L₁ = L₂ ∧ w₁ = w₂ := by
  induction h₁ with
  | nil => cases h₂; exact ⟨rfl, rfl, rfl⟩
  | cons hs _ ih =>
    cases h₂ with
    | cons hs₂ hr₂ =>
      obtain ⟨rfl, rfl, rfl⟩ := SizeStep.eq hs hs₂
      exact ih hr₂

/-- The sizing pass, run from `(pc, L, w)` over `ns`, gets through the nodes `ns₁` before `n`
and reaches `n` in a state where `P` holds of it with `err`. -/
def Reaches (P : UInt32 → List (String × UInt32) → SourceWindow → Item → SourceError → Prop)
    (pc : UInt32) (L : List (String × UInt32)) (w : SourceWindow) (ns ns₁ : List Node) (n : Node)
    (err : SourceError) : Prop :=
  ∃ ns₂ pc' L' w', ns = ns₁ ++ n :: ns₂ ∧ SizeRun pc L w ns₁ pc' L' w' ∧ P pc' L' w' n.item err

/-- `ns₁, n` is the first position of `ns` that the sizing pass reaches in a state where `P`
holds: no position before it is reached so. -/
def FirstReached (P : UInt32 → List (String × UInt32) → SourceWindow → Item → SourceError → Prop)
    (pc : UInt32) (L : List (String × UInt32)) (w : SourceWindow) (ns ns₁ : List Node) (n : Node)
    (err : SourceError) : Prop :=
  Reaches P pc L w ns ns₁ n err ∧
    ∀ ms₁ m err', Reaches P pc L w ns ms₁ m err' → ns₁.length ≤ ms₁.length

section Positions

variable {P : UInt32 → List (String × UInt32) → SourceWindow → Item → SourceError → Prop}

theorem not_reaches_nil {ms₁ : List Node} {m : Node} {err : SourceError} :
    ¬Reaches P pc L w [] ms₁ m err := by
  rintro ⟨ns₂, -, -, -, h, -⟩
  simp at h

/-- The first node is reached in the start state. -/
theorem reaches_cons_nil {n m : Node} {rest : List Node} {err : SourceError} :
    Reaches P pc L w (n :: rest) [] m err ↔ m = n ∧ P pc L w n.item err := by
  constructor
  · rintro ⟨ns₂, pc', L', w', h, hr, hp⟩
    simp only [List.nil_append, List.cons.injEq] at h
    obtain ⟨rfl, -⟩ := h
    cases hr
    exact ⟨rfl, hp⟩
  · rintro ⟨rfl, hp⟩
    exact ⟨rest, pc, L, w, rfl, .nil pc L w, hp⟩

/-- A later node is reached from the state after the first node's step. -/
theorem reaches_cons_cons {n n' m : Node} {rest ms₁ : List Node} {err : SourceError} {s : Nat}
    {L' : List (String × UInt32)} {w' : SourceWindow} (hs : SizeStep pc L w n.item s L' w') :
    Reaches P pc L w (n :: rest) (n' :: ms₁) m err ↔
      n' = n ∧ Reaches P (pc + s.toUInt32) L' w' rest ms₁ m err := by
  constructor
  · rintro ⟨ns₂, pc'', L'', w'', h, hr, hp⟩
    simp only [List.cons_append, List.cons.injEq] at h
    obtain ⟨rfl, hrest⟩ := h
    cases hr with
    | cons hs' hr' =>
      obtain ⟨rfl, rfl, rfl⟩ := SizeStep.eq hs hs'
      exact ⟨rfl, ns₂, pc'', L'', w'', hrest, hr', hp⟩
  · rintro ⟨rfl, ns₂, pc'', L'', w'', hrest, hr, hp⟩
    exact ⟨ns₂, pc'', L'', w'', by simp [hrest], .cons hs hr, hp⟩

/-- A run over all of `ns` reaches no position where `P` holds, if `P` holds at no node the
run steps over. -/
theorem not_reaches_cons {n m : Node} {rest ms₁ : List Node} {err : SourceError} {s : Nat}
    {L' : List (String × UInt32)} {w' : SourceWindow} (hs : SizeStep pc L w n.item s L' w')
    (hno : ∀ err, ¬P pc L w n.item err)
    (hrest : ∀ ms₁ m err, ¬Reaches P (pc + s.toUInt32) L' w' rest ms₁ m err) :
    ¬Reaches P pc L w (n :: rest) ms₁ m err := by
  intro h
  cases ms₁ with
  | nil => exact hno err (reaches_cons_nil.mp h).2
  | cons n' ms₁ => exact hrest ms₁ m err ((reaches_cons_cons hs).mp h).2

theorem firstReached_cons_nil {n : Node} {rest : List Node} {err : SourceError}
    (hp : P pc L w n.item err) : FirstReached P pc L w (n :: rest) [] n err :=
  ⟨reaches_cons_nil.mpr ⟨rfl, hp⟩, fun _ _ _ _ => Nat.zero_le _⟩

/-- The first position past a node where `P` does not hold is the first position of the rest. -/
theorem FirstReached.cons {n m : Node} {rest ns₁ : List Node} {err : SourceError} {s : Nat}
    {L' : List (String × UInt32)} {w' : SourceWindow} (hs : SizeStep pc L w n.item s L' w')
    (hno : ∀ err, ¬P pc L w n.item err)
    (h : FirstReached P (pc + s.toUInt32) L' w' rest ns₁ m err) :
    FirstReached P pc L w (n :: rest) (n :: ns₁) m err := by
  refine ⟨(reaches_cons_cons hs).mpr ⟨rfl, h.1⟩, ?_⟩
  intro ms₁ m' err' hm
  cases ms₁ with
  | nil => exact absurd (reaches_cons_nil.mp hm).2 (hno err')
  | cons n' ms₁ =>
    simpa using h.2 ms₁ m' err' ((reaches_cons_cons hs).mp hm).2

end Positions

/-- The sizing pass either gets through every node, reaching no node it cannot size, or stops
at the first node it cannot size, with the labels bound before it. -/
theorem sizes_cases (pc : UInt32) (L : List (String × UInt32)) (w : SourceWindow)
    (ns : List Node) :
    (∃ pc' Lf w' ss, sizes pc L w ns = .ok (Lf, ss) ∧ SizeRun pc L w ns pc' Lf w' ∧
        ∀ ms₁ m err, ¬Reaches SizeFault pc L w ns ms₁ m err) ∨
      ∃ ns₁ n err L', sizes pc L w ns = .error (⟨n.line, n.text, err⟩, L') ∧
        FirstReached SizeFault pc L w ns ns₁ n err := by
  induction ns generalizing pc L w with
  | nil => exact .inl ⟨pc, L, w, [], rfl, .nil pc L w, fun _ _ _ => not_reaches_nil⟩
  | cons n rest ih =>
    rcases sizeStep_or_fault pc L w n.item with ⟨s, L', w', hs⟩ | ⟨err, hf⟩
    · have hno : ∀ err, ¬SizeFault pc L w n.item err := fun _ => hs.not_fault
      rw [sizes_cons_of_step hs]
      rcases ih (pc + s.toUInt32) L' w' with ⟨pc', Lf, w'', ss, hok, hrun, hrest⟩ |
          ⟨ns₁, m, err, L'', herr, hfirst⟩
      · exact .inl ⟨pc', Lf, w'', s :: ss, by rw [hok]; rfl, .cons hs hrun,
          fun _ _ _ => not_reaches_cons hs hno hrest⟩
      · exact .inr ⟨n :: ns₁, m, err, L'', by rw [herr]; rfl, hfirst.cons hs hno⟩
    · exact .inr ⟨[], n, err, L, sizes_cons_of_fault hf, firstReached_cons_nil hf⟩

/-- A successful sizing pass is a run over all nodes, ending with the labels it returns. -/
theorem sizeRun_of_sizes {ns : List Node} {Lf : List (String × UInt32)} {ss : List Nat}
    (h : sizes pc L w ns = .ok (Lf, ss)) :
    ∃ pc' w', SizeRun pc L w ns pc' Lf w' ∧ ∀ ms₁ m err, ¬Reaches SizeFault pc L w ns ms₁ m err := by
  rcases sizes_cases pc L w ns with ⟨pc', Lf', w', ss', hok, hrun, hno⟩ | ⟨_, _, _, _, herr, -⟩
  · rw [h, Except.ok.injEq, Prod.mk.injEq] at hok
    exact ⟨pc', w', hok.1 ▸ hrun, hno⟩
  · rw [h] at herr
    cases herr

/-! ## §3. The emitting pass -/

/-- How a node fails the emitting pass, written at `pc` in window `w` with the labels `F`: a
data directive whose values cannot be written, or an instruction that no opcode encodes. -/
inductive EmitFault (pc : UInt32) (F : List (String × UInt32)) (w : SourceWindow) :
    Item → SourceError → Prop
  | directive (d : Directive) (args : List String) (e : SourceError) :
      d.generate args pc F = .error e → EmitFault pc F w (.directive d args) e
  | instruction (mn : String) (ops : List Operand) (e : SourceError) :
      encodeIn mn ops ⟨pc, F, false, w.active⟩ = .error e → EmitFault pc F w (.instruction mn ops) e

/-- The emitting pass at a node the sizing pass stepped over: it stops there if the node cannot
be written; otherwise it writes the node's bytes and goes on from the state after the step.
The labels `F` must keep those bound before the node. -/
theorem emit_cons_of_step {F : List (String × UInt32)} {n : Node} {s : Nat}
    {L' : List (String × UInt32)} {w' : SourceWindow}
    (hs : SizeStep pc L w n.item s L' w') (hF : ∀ l t, L.lookup l = some t → F.lookup l = some t)
    (rest : List Node) (ss : List Nat) :
    (∃ err, EmitFault pc F w n.item err ∧
        emit pc F w (n :: rest) (s :: ss) = .error (.line ⟨n.line, n.text, err⟩)) ∨
      (∀ err, ¬EmitFault pc F w n.item err) ∧ ∃ b : List UInt8,
        emit pc F w (n :: rest) (s :: ss) = (emit (pc + s.toUInt32) F w' rest ss).map (b ++ ·) := by
  generalize hit : n.item = it at hs
  cases hs with
  | label l _ =>
    refine .inr ⟨fun err hf => (by cases hf), [], ?_⟩
    have hpc : pc + (0 : Nat).toUInt32 = pc := UInt32.add_zero pc
    simp only [emit, hit, hpc, List.nil_append]
    cases emit pc F w rest ss <;> rfl
  | directive d args s hsz =>
    simp only [emit, hit]
    split
    · rename_i e he
      exact .inl ⟨e, .directive d args e he, rfl⟩
    · rename_i b hb
      rw [if_neg (by simp [Directive.length_generate hsz hb])]
      refine .inr ⟨fun err hf => ?_, b, rfl⟩
      cases hf with
      | directive _ _ _ he => simp_all
  | instruction mn ops b' hb' =>
    simp only [emit, hit]
    split
    · rename_i e he
      exact .inl ⟨e, .instruction mn ops e he, rfl⟩
    · rename_i b hb
      -- the sizing pass read the operands laxly, with the labels bound so far
      have hc : Context.Relaxes ⟨pc, F, false, w.active⟩ ⟨pc, L, true, w.active⟩ :=
        ⟨rfl, rfl, rfl, hF⟩
      rw [if_neg (by simp [encodeIn_length_relax hc hb hb'])]
      refine .inr ⟨fun err hf => ?_, b, rfl⟩
      cases hf with
      | instruction _ _ _ he => simp_all

/-- After a successful sizing pass, the emitting pass with every label known either writes every
node, and reaches no node it cannot write, or stops at the first node it cannot write at the
state the sizing pass gave that node. It never stops because a size changed. -/
theorem emit_cases {ns : List Node} {Lf F : List (String × UInt32)} {ss : List Nat}
    (h : sizes pc L w ns = .ok (Lf, ss)) (hF : ∀ l t, Lf.lookup l = some t → F.lookup l = some t) :
    (∃ b, emit pc F w ns ss = .ok b ∧
        ∀ ms₁ m err, ¬Reaches (fun pc _ w => EmitFault pc F w) pc L w ns ms₁ m err) ∨
      ∃ ns₁ n err, emit pc F w ns ss = .error (.line ⟨n.line, n.text, err⟩) ∧
        FirstReached (fun pc _ w => EmitFault pc F w) pc L w ns ns₁ n err := by
  induction ns generalizing pc L w ss with
  | nil =>
    simp only [sizes, Except.ok.injEq, Prod.mk.injEq] at h
    obtain ⟨-, rfl⟩ := h
    exact .inl ⟨[], by simp [emit], fun _ _ _ => not_reaches_nil⟩
  | cons n rest ih =>
    obtain ⟨s, ss', L', w', hs, rfl, hrest⟩ := sizes_cons h
    have hFL : ∀ l t, L.lookup l = some t → F.lookup l = some t :=
      fun l t hl => hF l t (lookup_sizes h hl)
    rcases emit_cons_of_step hs hFL rest ss' with ⟨err, hf, he⟩ | ⟨hno, b, he⟩
    · exact .inr ⟨[], n, err, he, firstReached_cons_nil hf⟩
    · rw [he]
      rcases ih hrest with ⟨b', hok, hnone⟩ | ⟨ns₁, m, err, herr, hfirst⟩
      · exact .inl ⟨b ++ b', by rw [hok]; rfl, fun _ _ _ => not_reaches_cons hs hno hnone⟩
      · exact .inr ⟨n :: ns₁, m, err, by rw [herr]; rfl, hfirst.cons hs hno⟩

/-! ## §4. The reported line -/

/-- The three passes over a program, in the order they run. -/
inductive Phase where
  /-- Reading each line. -/
  | parse
  /-- Sizing each node, with the labels bound so far. -/
  | size
  /-- Writing each node, with every label known. -/
  | emit
  deriving DecidableEq, Repr

/-- The place of a pass in the order they run. -/
def Phase.rank : Phase → Nat
  | .parse => 0
  | .size => 1
  | .emit => 2

/-- Line `k` of a source, counted from 1, fails in a pass with an error:
* `parse`: the line cannot be read;
* `size`: the lines can be read, and the sizing pass reaches a node of line `k` that it cannot
  size: a label bound before, or a line that cannot be sized at its address and in its window
  with the labels of the lines before it;
* `emit`: the lines can be read and sized, and a node of line `k` cannot be written at the
  address and in the window the sizing pass gives it, with every label of the program known. -/
def LineFault (src : String) (base : UInt32) : Phase → Nat → SourceError → Prop
  | .parse, k, err => 0 < k ∧
      ∃ l, (Statement.lines src.toList)[k - 1]? = some l ∧ Statement.parse l = .error err
  | .size, k, err => ∃ nodes, parseLines 1 (Statement.lines src.toList) = .ok nodes ∧
      ∃ ns₁ n, n.line = k ∧ Reaches SizeFault base [] {} nodes ns₁ n err
  | .emit, k, err => ∃ nodes, parseLines 1 (Statement.lines src.toList) = .ok nodes ∧
      ∃ pcF F wF, SizeRun base [] {} nodes pcF F wF ∧
        ∃ ns₁ n, n.line = k ∧ Reaches (fun pc _ w => EmitFault pc F w) base [] {} nodes ns₁ n err

/-- The result of assembling, pass by pass. -/
theorem assemble_result (src : String) (base : UInt32) :
    (assemble src base).result =
      match parseLines 1 (Statement.lines src.toList) with
      | .error e => .error (.line e)
      | .ok nodes =>
        match sizes base [] {} nodes with
        | .error (e, _) => .error (.line e)
        | .ok (Lf, ss) => emit base Lf {} nodes ss := by
  unfold assemble
  cases parseLines 1 (Statement.lines src.toList) with
  | error e => rfl
  | ok nodes =>
    dsimp only
    cases sizes base [] {} nodes with
    | error r => rfl
    | ok r => rfl

variable {src : String} {base : UInt32}

/-- No line fails to be read once the parsing pass succeeds. -/
theorem no_parse_fault {nodes : List Node} (h : parseLines 1 (Statement.lines src.toList) = .ok nodes)
    (k : Nat) (err : SourceError) : ¬LineFault src base .parse k err := by
  rintro ⟨-, l, hl, herr⟩
  obtain ⟨st, hst⟩ := parse_of_parseLines h l (List.mem_of_getElem? hl)
  rw [hst] at herr
  cases herr

/-- A node of a program has the text of its line. -/
theorem text_of_mem {nodes : List Node} (h : parseLines 1 (Statement.lines src.toList) = .ok nodes)
    {x : Node} (hx : x ∈ nodes) :
    ∃ l, (Statement.lines src.toList)[x.line - 1]? = some l ∧ x.text = lineText l :=
  (mem_parseLines h hx).2

/-- The first position of a sorted program where a pass fails holds the smallest failing line. -/
theorem line_le_of_firstReached
    {P : UInt32 → List (String × UInt32) → SourceWindow → Item → SourceError → Prop}
    {nodes ns₁ ms₁ : List Node} {n m : Node} {err err' : SourceError}
    (hs : nodes.Pairwise fun a b => a.line ≤ b.line)
    (hfirst : FirstReached P pc L w nodes ns₁ n err) (hm : Reaches P pc L w nodes ms₁ m err') :
    n.line ≤ m.line := by
  have hle := hfirst.2 _ _ _ hm
  obtain ⟨ns₂, -, -, -, hn, -, -⟩ := hfirst.1
  obtain ⟨ms₂, -, -, -, hm', -, -⟩ := hm
  exact line_le_of_length_le hs hn hm' hle

/-- A failure of the parsing pass is reported at the first line that cannot be read. -/
theorem reported_parse {e : LineError}
    (h : parseLines 1 (Statement.lines src.toList) = .error e) :
    LineFault src base .parse e.line e.err ∧
      (∀ k < e.line, ∀ err, ¬LineFault src base .parse k err) ∧
      ∃ l, (Statement.lines src.toList)[e.line - 1]? = some l ∧ e.text = lineText l := by
  obtain ⟨ls₁, l, ls₂, err, hls, hok, herr, rfl⟩ := parseLines_eq_error h
  have hl : (Statement.lines src.toList)[1 + ls₁.length - 1]? = some l := by simp [hls]
  refine ⟨⟨show 0 < 1 + ls₁.length by omega, l, hl, herr⟩, ?_, l, hl, rfl⟩
  -- a line before it is one of the lines read
  rintro k hk err' ⟨hpos, l', hl', herr'⟩
  have hmem : l' ∈ ls₁ := by
    rw [hls, List.getElem?_append_left (by simp at hk; omega)] at hl'
    exact List.mem_of_getElem? hl'
  obtain ⟨st, hst⟩ := hok l' hmem
  rw [hst] at herr'
  cases herr'

/-- A failure of the sizing pass is reported at the first line it cannot size. -/
theorem reported_size {nodes : List Node} {e : LineError} {L' : List (String × UInt32)}
    (hp : parseLines 1 (Statement.lines src.toList) = .ok nodes)
    (h : sizes base [] {} nodes = .error (e, L')) :
    LineFault src base .size e.line e.err ∧
      (∀ k < e.line, ∀ err, ¬LineFault src base .size k err) ∧
      ∃ l, (Statement.lines src.toList)[e.line - 1]? = some l ∧ e.text = lineText l := by
  rcases sizes_cases base [] {} nodes with ⟨_, _, _, _, hok, -⟩ | ⟨ns₁, n, err, L'', herr, hfirst⟩
  · rw [h] at hok
    cases hok
  rw [h, Except.error.injEq, Prod.mk.injEq] at herr
  obtain ⟨rfl, -⟩ := herr
  obtain ⟨ns₂, -, -, -, hn, -, -⟩ := hfirst.1
  refine ⟨⟨nodes, hp, ns₁, n, rfl, hfirst.1⟩, ?_, text_of_mem hp (by simp [hn])⟩
  -- a failing node of an earlier line would be an earlier failing position
  rintro k hk err' ⟨nodes', hp', ms₁, m, rfl, hm⟩
  rw [hp, Except.ok.injEq] at hp'
  subst hp'
  exact absurd (line_le_of_firstReached (parseLines_sorted hp) hfirst hm) (by simpa using hk)

/-- A failure of the emitting pass is reported at the first line it cannot write. -/
theorem reported_emit {nodes : List Node} {e : LineError} {Lf : List (String × UInt32)}
    {ss : List Nat} (hp : parseLines 1 (Statement.lines src.toList) = .ok nodes)
    (h : sizes base [] {} nodes = .ok (Lf, ss)) (he : emit base Lf {} nodes ss = .error (.line e)) :
    LineFault src base .emit e.line e.err ∧
      (∀ k < e.line, ∀ err, ¬LineFault src base .emit k err) ∧
      ∃ l, (Statement.lines src.toList)[e.line - 1]? = some l ∧ e.text = lineText l := by
  obtain ⟨pcF, wF, hrun, -⟩ := sizeRun_of_sizes h
  rcases emit_cases h (fun _ _ h => h) with ⟨b, hok, -⟩ | ⟨ns₁, n, err, herr, hfirst⟩
  · rw [he] at hok
    cases hok
  rw [he, Except.error.injEq, AssemblyFailure.line.injEq] at herr
  subst herr
  obtain ⟨ns₂, -, -, -, hn, -, -⟩ := hfirst.1
  refine ⟨⟨nodes, hp, pcF, Lf, wF, hrun, ns₁, n, rfl, hfirst.1⟩, ?_, text_of_mem hp (by simp [hn])⟩
  -- the labels of any run over the whole program are those of the sizing pass
  rintro k hk err' ⟨nodes', hp', pcF', F', wF', hrun', ms₁, m, rfl, hm⟩
  rw [hp, Except.ok.injEq] at hp'
  subst hp'
  obtain ⟨-, rfl, -⟩ := SizeRun.eq hrun hrun'
  exact absurd (line_le_of_firstReached (parseLines_sorted hp) hfirst hm) (by simpa using hk)

/-- Assembly fails with a line error exactly when some line fails in some pass. The line it
reports is the smallest line that fails in the earliest pass in which any line fails, and its
text is that line (lines end at every line feed and NUL) without the carriage returns before
its end. -/
theorem assemble_reports_first_failing_line (src : String) (base : UInt32) :
    ((∃ e, (assemble src base).result = .error (.line e)) ↔
      ∃ ph k err, LineFault src base ph k err) ∧
    ∀ e, (assemble src base).result = .error (.line e) →
      ∃ ph, (∀ ph', ph'.rank < ph.rank → ∀ k err, ¬LineFault src base ph' k err) ∧
        LineFault src base ph e.line e.err ∧ (∀ k < e.line, ∀ err, ¬LineFault src base ph k err) ∧
        ∃ l, (Statement.lines src.toList)[e.line - 1]? = some l ∧ e.text = lineText l := by
  have reported : ∀ e, (assemble src base).result = .error (.line e) →
      ∃ ph, (∀ ph', ph'.rank < ph.rank → ∀ k err, ¬LineFault src base ph' k err) ∧
        LineFault src base ph e.line e.err ∧ (∀ k < e.line, ∀ err, ¬LineFault src base ph k err) ∧
        ∃ l, (Statement.lines src.toList)[e.line - 1]? = some l ∧ e.text = lineText l := by
    intro e he
    rw [assemble_result] at he
    split at he
    · -- the parsing pass failed
      rename_i e' hp
      cases he
      exact ⟨.parse, fun ph' hph => by cases ph' <;> simp [Phase.rank] at hph, reported_parse hp⟩
    · rename_i nodes hp
      split at he
      · -- the sizing pass failed: every line was read
        rename_i e' L' hs
        cases he
        refine ⟨.size, fun ph' hph k err => ?_, reported_size hp hs⟩
        cases ph' <;> simp [Phase.rank] at hph
        exact no_parse_fault hp k err
      · -- the emitting pass failed: every line was read and sized
        rename_i Lf ss hs
        refine ⟨.emit, fun ph' hph k err => ?_, reported_emit hp hs he⟩
        cases ph' <;> simp only [Phase.rank] at hph
        · exact no_parse_fault hp k err
        · rintro ⟨nodes', hp', ns₁, n, -, hn⟩
          rw [hp, Except.ok.injEq] at hp'
          subst hp'
          obtain ⟨-, -, -, hno⟩ := sizeRun_of_sizes hs
          exact hno ns₁ n err hn
        · omega
  refine ⟨⟨fun ⟨e, he⟩ => ?_, fun ⟨ph, k, err, hk⟩ => ?_⟩, reported⟩
  · obtain ⟨ph, -, hfault, -⟩ := reported e he
    exact ⟨ph, e.line, e.err, hfault⟩
  · -- a failing line makes its pass fail, unless an earlier pass failed first
    rw [assemble_result]
    cases hp : parseLines 1 (Statement.lines src.toList) with
    | error e => exact ⟨e, rfl⟩
    | ok nodes =>
      simp only
      rcases sizes_cases base [] {} nodes with ⟨pcF, Lf, wF, ss, hs, hrun, hno⟩ |
          ⟨ns₁, n, err', L', hs, -⟩
      · rw [hs]
        simp only
        rcases emit_cases hs (fun _ _ h => h) with ⟨b, he, hclean⟩ | ⟨ns₁, n, err', he, -⟩
        · -- no node failed any pass: the failing line cannot exist
          exfalso
          cases ph with
          | parse => exact no_parse_fault hp k err hk
          | size =>
            obtain ⟨nodes', hp', ms₁, m, -, hm⟩ := hk
            rw [hp, Except.ok.injEq] at hp'
            subst hp'
            exact hno ms₁ m err hm
          | emit =>
            obtain ⟨nodes', hp', pcF', F', wF', hrun', ms₁, m, -, hm⟩ := hk
            rw [hp, Except.ok.injEq] at hp'
            subst hp'
            obtain ⟨-, rfl, -⟩ := SizeRun.eq hrun hrun'
            exact hclean ms₁ m err hm
        · exact ⟨_, he⟩
      · rw [hs]
        exact ⟨_, rfl⟩

end Program

/-- A later line that cannot be read is reported before an earlier line that cannot be
encoded. In `jmpa cc_UC, foo` then `bogus`, the first line is the instruction `jmpa` with no
label, and its label `foo` is undefined at address 0 with the labels of the program (it binds
none: the second line cannot be read). Yet the error reported is a line error on line 2, an
unknown mnemonic (`AssemblyFailure.site` keeps a failure's line and class). -/
theorem parse_failure_reported_before_earlier_line :
    (assemble "    jmpa cc_UC, foo\n    bogus\n" 0).result.mapError AssemblyFailure.site =
      .error (2, some .unknownMnemonic) ∧
    Statement.lines "    jmpa cc_UC, foo\n    bogus\n".toList =
      ["    jmpa cc_UC, foo".toList, "    bogus".toList] ∧
    (Statement.parse "    jmpa cc_UC, foo".toList).toOption.map
        (fun st => (st.label, st.mnemonic, st.operands)) =
      some (none, "jmpa", [⟨.condition .always, "cc_UC"⟩, ⟨.label "foo", "foo"⟩]) ∧
    (encodeIn "jmpa" [⟨.condition .always, "cc_UC"⟩, ⟨.label "foo", "foo"⟩]
        ⟨0, [], false, false⟩).mapError SourceError.errorClass = .error .undefinedLabel :=
  ⟨by decide +kernel, by decide, by decide +kernel, by decide +kernel⟩

end C166Codec
