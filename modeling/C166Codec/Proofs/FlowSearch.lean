import Mathlib.Data.List.Nodup
import Mathlib.Data.List.Perm.Subperm
import Mathlib.Logic.Relation
import Mathlib.Tactic.SplitIfs
import C166Codec.Proofs.ListingShape
/-!
# The flow search finds exactly the reachable code

A listing decides which decoded instructions are code by a worklist search from offset 0
(`Listing.flow`). This module proves what that search computes, for every sweep of a buffer
and every base.

* The offsets it makes code are the least set of decoded offsets that holds offset 0 and is
  closed under flow: the word after an instruction that is not terminal, and the word of the
  static target of a jump or call inside the buffer (`Listing.Reaches`).
* A target gets a subroutine label when some reached call names it, and a location label
  when some reached jump names it and no reached call does (`Listing.LabelFrom`).
* The order in which the worklist is taken does not matter: a step of the search
  (`Listing.SearchStep`) may take any offset of the worklist, every run of such steps stops,
  and every run that empties the worklist ends with what `flow` computes. The search in
  worklist order empties it within its fuel.

Everything follows from one invariant (`Listing.SearchInv`) that one step of the search keeps,
whichever offset it takes, and a budget (`Listing.budget`) that every step lowers by one.
-/

namespace C166Codec.Instruction

/-- An instruction is at most two words long. -/
theorem size_le_four (i : Instruction) : i.size ≤ 4 := by
  unfold Instruction.size Descriptor.length
  rcases Layout.length_eq i.descriptor.layout with h | h <;> omega

end C166Codec.Instruction

namespace C166Codec.Listing

/-! ## §1. What flow should find -/

/-- The word an offset lies in: an odd offset is rounded down, as the worklist rounds it. -/
def wordOf (o : Nat) : Nat := o - o % 2

/-- The buffer offset that an instruction's static target names, in a buffer of `n` bytes
loaded at `base`, when the target lies inside the buffer. -/
def targetOffset? (base : UInt32) (n : Nat) (i : Instruction) : Option Nat :=
  match i.branch.target with
  | some t => if base ≤ t ∧ (t - base).toNat < n then some (t - base).toNat else none
  | none => none

theorem targetOffset?_lt {base : UInt32} {n t : Nat} {i : Instruction}
    (h : targetOffset? base n i = some t) : t < n := by
  unfold targetOffset? at h
  split at h
  · split_ifs at h with hr
    cases h
    exact hr.2
  · cases h

theorem lt_of_instrAt {sw : Array (Option Instruction)} {off : Nat} {i : Instruction}
    (h : instrAt sw off = some i) : off < sw.size := by
  have hs : (sw[off]?).isSome := by
    cases hs : sw[off]? <;> simp_all [instrAt]
  simpa using hs

section Spec

variable (sw : Array (Option Instruction)) (base : UInt32)

/-- The instruction at `o` is a branch of kind `k` whose static target is the offset `t`. -/
def BranchesTo (o : Nat) (k : BranchKind) (t : Nat) : Prop :=
  ∃ i, instrAt sw o = some i ∧ i.branch.kind = k ∧ targetOffset? base sw.size i = some t

instance (o : Nat) (k : BranchKind) (t : Nat) : Decidable (BranchesTo sw base o k t) :=
  decidable_of_iff (∃ i ∈ instrAt sw o, i.branch.kind = k ∧ targetOffset? base sw.size i = some t)
    (by simp [BranchesTo, Option.mem_def])

/-- Flow goes on from the instruction at `o` to the word `a`: the word after it when it is
not terminal, or the word of its static jump or call target. -/
def FlowsTo (o a : Nat) : Prop :=
  (∃ i, instrAt sw o = some i ∧ i.terminal = false ∧ a = wordOf (o + i.size)) ∨
    ∃ t, (BranchesTo sw base o .jump t ∨ BranchesTo sw base o .call t) ∧ a = wordOf t

/-- The code that flow reaches: the least set of decoded offsets that holds offset 0 and every
decoded word that flow goes on to from one of its members. -/
inductive Reaches : Nat → Prop
  | entry : (instrAt sw 0).isSome → Reaches 0
  | step {o a : Nat} : Reaches o → FlowsTo sw base o a → (instrAt sw a).isSome → Reaches a

open Classical in
/-- `l` is the label that the branches at the offsets of `P` leave at `t`: a call makes it a
subroutine, else a jump makes it a location, else there is none. -/
def LabelFrom (P : Nat → Prop) (t : Nat) (l : Option LabelKind) : Prop :=
  l = if ∃ o, P o ∧ BranchesTo sw base o .call t then some .subroutine
    else if ∃ o, P o ∧ BranchesTo sw base o .jump t then some .location
    else none

end Spec

section LabelFrom

variable {sw : Array (Option Instruction)} {base : UInt32} {P : Nat → Prop} {t : Nat}
  {l : Option LabelKind}

theorem LabelFrom.unique {l' : Option LabelKind} (h : LabelFrom sw base P t l)
    (h' : LabelFrom sw base P t l') : l = l' :=
  h.trans h'.symm

theorem LabelFrom.subroutine_iff (h : LabelFrom sw base P t l) :
    l = some .subroutine ↔ ∃ o, P o ∧ BranchesTo sw base o .call t := by
  rw [h]
  split_ifs with hc hj <;> simp [hc]

theorem LabelFrom.location_iff (h : LabelFrom sw base P t l) :
    l = some .location ↔
      (∃ o, P o ∧ BranchesTo sw base o .jump t) ∧ ¬∃ o, P o ∧ BranchesTo sw base o .call t := by
  rw [h]
  split_ifs with hc hj
  · simp [hc]
  · simp [hc, hj]
  · simp [hj]

theorem LabelFrom.none_iff (h : LabelFrom sw base P t l) :
    l = none ↔ ¬∃ o, P o ∧ (BranchesTo sw base o .jump t ∨ BranchesTo sw base o .call t) := by
  rw [h]
  split_ifs with hc hj <;> simp_all [and_or_left, exists_or]

/-- Following one more instruction, at `off`: its call sets a subroutine label, and its jump
a location label where there is no label yet. -/
theorem LabelFrom.follow {Q : Nat → Prop} {off : Nat} (hQ : ∀ o, Q o ↔ o = off ∨ P o)
    (h : LabelFrom sw base P t l) :
    LabelFrom sw base Q t
      (if BranchesTo sw base off .call t then some .subroutine
        else if BranchesTo sw base off .jump t ∧ l = none then some .location else l) := by
  have hex : ∀ k, (∃ o, Q o ∧ BranchesTo sw base o k t) ↔
      BranchesTo sw base off k t ∨ ∃ o, P o ∧ BranchesTo sw base o k t := by
    intro k
    simp only [hQ, or_and_right, exists_or, exists_eq_left]
  unfold LabelFrom at h ⊢
  rw [hex, hex, h]
  by_cases hc : BranchesTo sw base off .call t
  · simp [hc]
  by_cases hpc : ∃ o, P o ∧ BranchesTo sw base o .call t
  · simp [hc, hpc]
  -- no call names `t`: the first jump to it sets the location label
  by_cases hj : BranchesTo sw base off .jump t <;>
    by_cases hpj : ∃ o, P o ∧ BranchesTo sw base o .jump t <;> simp [hc, hpc, hj, hpj]

end LabelFrom

/-! ## §2. One step of the search -/

/-- Whether the search has made an offset code, read as the listing reads it. -/
def Flow.isCode (fl : Flow) (o : Nat) : Bool := fl.reached[o]?.getD false

/-- The label the search has left at an offset, read as the listing reads it. -/
def Flow.labelAt (fl : Flow) (t : Nat) : Option LabelKind := fl.labels[t]?.bind id

/-- Two results of the search of one size that agree on code and labels are equal. -/
theorem Flow.eq_of_isCode_labelAt {fl fl' : Flow} (hr : fl.reached.size = fl'.reached.size)
    (hl : fl.labels.size = fl'.labels.size) (hc : ∀ o, fl.isCode o = fl'.isCode o)
    (ht : ∀ t, fl.labelAt t = fl'.labelAt t) : fl = fl' := by
  obtain ⟨r, l⟩ := fl
  obtain ⟨r', l'⟩ := fl'
  simp only [Flow.mk.injEq]
  constructor
  · refine Array.ext hr fun o h h' => ?_
    simpa [Flow.isCode, h, h'] using hc o
  · refine Array.ext hl fun t h h' => ?_
    simpa [Flow.labelAt, h, h'] using ht t

theorem isCode_set {fl : Flow} {off : Nat} (h : off < fl.reached.size)
    (labels : Array (Option LabelKind)) (o : Nat) :
    Flow.isCode ⟨fl.reached.setIfInBounds off true, labels⟩ o = true ↔
      o = off ∨ fl.isCode o = true := by
  simp only [Flow.isCode, Array.getElem?_setIfInBounds]
  by_cases ho : off = o
  · subst ho
    simp [h]
  · simp [ho, Ne.symm ho]

theorem labelAt_markLabel {labels : Array (Option LabelKind)} {u t : Nat} {k : BranchKind}
    (hu : u < labels.size) (hk : k = .jump ∨ k = .call) :
    (markLabel labels u k)[t]?.bind id =
      if u = t ∧ k = .call then some .subroutine
      else if u = t ∧ k = .jump ∧ labels[t]?.bind id = none then some .location
      else labels[t]?.bind id := by
  by_cases hut : u = t
  · subst hut
    rcases hk with rfl | rfl <;> simp [markLabel, hu]
    split <;> simp_all
  · rcases hk with rfl | rfl <;> simp [markLabel, hut]
    split <;> simp [hut]

/-- A state of the search: the worklist, every word ever pushed, and what is found. -/
structure SearchState where
  queue : List Nat
  seen : List Nat
  found : Flow

/-- The worklist and the pushed words after pushing the offsets `offs` in order. -/
def pushAll (offs : List Nat) (queue seen : List Nat) : List Nat × List Nat :=
  offs.foldl (fun qs a => push a qs.1 qs.2) (queue, seen)

theorem push_eq (a : Nat) (queue seen : List Nat) :
    push a queue seen =
      if wordOf a ∈ seen then (queue, seen) else (queue ++ [wordOf a], wordOf a :: seen) := by
  unfold push wordOf
  split_ifs <;> simp_all

theorem pushAll_cons (a : Nat) (offs queue seen : List Nat) :
    pushAll (a :: offs) queue seen = pushAll offs (push a queue seen).1 (push a queue seen).2 :=
  rfl

theorem mem_push_seen {a x : Nat} {queue seen : List Nat} :
    x ∈ (push a queue seen).2 ↔ x ∈ seen ∨ x = wordOf a := by
  rw [push_eq]
  split_ifs with h
  · exact ⟨Or.inl, fun hx => hx.elim id (· ▸ h)⟩
  · simp [or_comm]

theorem mem_push_queue {a x : Nat} {queue seen : List Nat} :
    x ∈ (push a queue seen).1 ↔ x ∈ queue ∨ (x = wordOf a ∧ wordOf a ∉ seen) := by
  rw [push_eq]
  split_ifs with h <;> simp [h]

theorem mem_pushAll_seen {x : Nat} (offs : List Nat) {queue seen : List Nat} :
    x ∈ (pushAll offs queue seen).2 ↔ x ∈ seen ∨ ∃ a ∈ offs, x = wordOf a := by
  induction offs generalizing queue seen with
  | nil => simp [pushAll]
  | cons a offs ih =>
    rw [pushAll_cons, ih, mem_push_seen]
    simp only [List.mem_cons, exists_eq_or_imp, or_assoc]

/-- The worklist gains exactly the words pushed for the first time. -/
theorem mem_pushAll_queue {x : Nat} (offs : List Nat) {queue seen : List Nat} :
    x ∈ (pushAll offs queue seen).1 ↔
      x ∈ queue ∨ (x ∈ (pushAll offs queue seen).2 ∧ x ∉ seen) := by
  induction offs generalizing queue seen with
  | nil => simp [pushAll]
  | cons a offs ih =>
    rw [pushAll_cons, ih, mem_push_queue, mem_push_seen]
    -- the word pushed first stays pushed through the later pushes
    have hw : wordOf a ∈ (pushAll offs (push a queue seen).1 (push a queue seen).2).2 :=
      (mem_pushAll_seen offs).2 (Or.inl (mem_push_seen.2 (Or.inr rfl)))
    constructor
    · rintro ((hq | ⟨rfl, hn⟩) | ⟨hs, hn⟩)
      · exact Or.inl hq
      · exact Or.inr ⟨hw, hn⟩
      · exact Or.inr ⟨hs, fun h => hn (Or.inl h)⟩
    · rintro (hq | ⟨hs, hn⟩)
      · exact Or.inl (Or.inl hq)
      · by_cases hx : x = wordOf a
        · exact Or.inl (Or.inr ⟨hx, hx ▸ hn⟩)
        · exact Or.inr ⟨hs, fun h => h.elim hn hx⟩

theorem length_pushAll (offs : List Nat) (queue seen : List Nat) :
    (pushAll offs queue seen).1.length + seen.length =
      queue.length + (pushAll offs queue seen).2.length := by
  induction offs generalizing queue seen with
  | nil => simp [pushAll]
  | cons a offs ih =>
    rw [pushAll_cons]
    have hstep := ih (push a queue seen).1 (push a queue seen).2
    rw [push_eq] at hstep ⊢
    split_ifs at hstep ⊢ <;> simp at hstep ⊢ <;> omega

theorem nodup_pushAll (offs : List Nat) {queue seen : List Nat} (h : seen.Nodup) :
    (pushAll offs queue seen).2.Nodup := by
  induction offs generalizing queue seen with
  | nil => exact h
  | cons a offs ih =>
    rw [pushAll_cons]
    apply ih
    rw [push_eq]
    split_ifs with hw
    · exact h
    · exact List.nodup_cons.2 ⟨hw, h⟩

section Step

variable (sw : Array (Option Instruction)) (base : UInt32)

/-- The offsets that the instruction `i` at `off` hands to the worklist: the one after it
unless it is terminal, then its static jump or call target inside the buffer. -/
def successors (off : Nat) (i : Instruction) : List Nat :=
  (if i.terminal then [] else [off + i.size]) ++
    if i.branch.kind = .jump ∨ i.branch.kind = .call then (targetOffset? base sw.size i).toList
    else []

/-- The labels once the instruction `i` is followed: its static jump or call target inside
the buffer gets its label. -/
def branchLabels (i : Instruction) (labels : Array (Option LabelKind)) :
    Array (Option LabelKind) :=
  match targetOffset? base sw.size i with
  | some t =>
    if i.branch.kind = .jump ∨ i.branch.kind = .call then markLabel labels t i.branch.kind
    else labels
  | none => labels

/-- One step of the search at the offset `off`, already taken out of the worklist: an offset
that starts no instruction or is code already is dropped; otherwise its instruction becomes
code, its successors are pushed and its target gets its label. -/
def visit (off : Nat) (queue seen : List Nat) (fl : Flow) : SearchState :=
  match instrAt sw off with
  | none => ⟨queue, seen, fl⟩
  | some i =>
    if fl.isCode off then ⟨queue, seen, fl⟩
    else
      let qs := pushAll (successors sw base off i) queue seen
      ⟨qs.1, qs.2, ⟨fl.reached.setIfInBounds off true, branchLabels sw base i fl.labels⟩⟩

/-- The state the search starts from: offset 0 in the worklist, nothing found. -/
def searchStart : SearchState :=
  ⟨[0], [0], ⟨Array.replicate sw.size false, Array.replicate sw.size none⟩⟩

/-- A step of the search that takes the offset `off` out of any place in the worklist. -/
inductive SearchStep : SearchState → SearchState → Prop
  | take (q₁ q₂ seen : List Nat) (off : Nat) (fl : Flow) :
      SearchStep ⟨q₁ ++ off :: q₂, seen, fl⟩ (visit sw base off (q₁ ++ q₂) seen fl)

end Step

section StepLemmas

variable {sw : Array (Option Instruction)} {base : UInt32}

theorem branchesTo_iff {off t : Nat} {i : Instruction} {k : BranchKind}
    (hi : instrAt sw off = some i) :
    BranchesTo sw base off k t ↔ i.branch.kind = k ∧ targetOffset? base sw.size i = some t := by
  simp [BranchesTo, hi]

/-- The words pushed after an instruction are the words flow goes on to from it. -/
theorem flowsTo_iff {off a : Nat} {i : Instruction} (hi : instrAt sw off = some i) :
    FlowsTo sw base off a ↔ ∃ b ∈ successors sw base off i, a = wordOf b := by
  simp only [FlowsTo, branchesTo_iff hi, hi, Option.some.injEq, exists_eq_left',
    successors, List.mem_append, ← or_and_right]
  cases ht : i.terminal <;> by_cases hk : i.branch.kind = .jump ∨ i.branch.kind = .call <;>
    cases ho : targetOffset? base sw.size i <;> simp_all

theorem labelAt_branchLabels {off : Nat} {i : Instruction} (hi : instrAt sw off = some i)
    {fl : Flow} (hsize : fl.labels.size = sw.size) (reached : Array Bool) (t : Nat) :
    Flow.labelAt ⟨reached, branchLabels sw base i fl.labels⟩ t =
      if BranchesTo sw base off .call t then some .subroutine
      else if BranchesTo sw base off .jump t ∧ fl.labelAt t = none then some .location
      else fl.labelAt t := by
  simp only [Flow.labelAt, branchLabels, branchesTo_iff hi]
  cases ho : targetOffset? base sw.size i with
  | none => simp
  | some u =>
    simp only [Option.some.injEq]
    by_cases hk : i.branch.kind = .jump ∨ i.branch.kind = .call
    · rw [if_pos hk, labelAt_markLabel (hsize ▸ targetOffset?_lt ho) hk]
      simp only [and_comm, and_assoc]
    · rw [if_neg hk]
      have hc : i.branch.kind ≠ .call := fun h => hk (Or.inr h)
      have hj : i.branch.kind ≠ .jump := fun h => hk (Or.inl h)
      simp [hc, hj]

theorem size_branchLabels (i : Instruction) (labels : Array (Option LabelKind)) :
    (branchLabels sw base i labels).size = labels.size := by
  unfold branchLabels markLabel
  split
  · split_ifs <;> simp
  · rfl

/-- A step of `explore` is `visit` at the head of the worklist. -/
theorem explore_cons (fuel off : Nat) (queue seen : List Nat) (fl : Flow) :
    explore sw base (fuel + 1) (off :: queue) seen fl =
      explore sw base fuel (visit sw base off queue seen fl).queue
        (visit sw base off queue seen fl).seen (visit sw base off queue seen fl).found := by
  rw [explore]
  cases hi : instrAt sw off with
  | none => simp [visit, hi]
  | some i =>
    by_cases hc : fl.isCode off = true
    · simp only [Flow.isCode] at hc
      simp [visit, hi, hc, Flow.isCode]
    · simp only [Flow.isCode, Bool.not_eq_true] at hc
      simp only [visit, hi, hc, Flow.isCode, if_false, Bool.false_eq_true]
      -- `explore` tests the target's kind and range in one condition, `visit` in two steps
      cases hT : i.branch.target with
      | none =>
        have ho : targetOffset? base sw.size i = none := by simp [targetOffset?, hT]
        cases ht : i.terminal <;> simp [successors, branchLabels, ho, ht, pushAll]
      | some t =>
        by_cases hk : i.branch.kind = .jump ∨ i.branch.kind = .call
        · by_cases hr : base ≤ t ∧ (t - base).toNat < sw.size
          · have ho : targetOffset? base sw.size i = some (t - base).toNat := by
              simp only [targetOffset?, hT, if_pos hr]
            cases ht : i.terminal <;>
              simp only [successors, branchLabels, ho, hk, hr, ht, and_self, if_true, pushAll,
                Option.toList_some, List.foldl_cons, List.foldl_nil, List.cons_append,
                List.nil_append, Bool.false_eq_true, if_false]
          · have ho : targetOffset? base sw.size i = none := by
              simp only [targetOffset?, hT, if_neg hr]
            cases ht : i.terminal <;>
              simp [successors, branchLabels, ho, hk, hr, ht, pushAll]
        · cases ho : targetOffset? base sw.size i <;> cases ht : i.terminal <;>
            simp [successors, branchLabels, ho, hk, ht, pushAll]

theorem flow_eq_explore :
    flow sw base = explore sw base (sw.size + 4) (searchStart sw).queue (searchStart sw).seen
      (searchStart sw).found :=
  rfl

end StepLemmas

/-! ## §3. The invariant of the search -/

section Invariant

variable (sw : Array (Option Instruction)) (base : UInt32)

/-- What holds of every state of the search, whatever order the worklist is taken in. -/
structure SearchInv (st : SearchState) : Prop where
  reached_size : st.found.reached.size = sw.size
  labels_size : st.found.labels.size = sw.size
  entry_seen : 0 ∈ st.seen
  queue_seen : ∀ a ∈ st.queue, a ∈ st.seen
  /-- Code is reachable. -/
  sound : ∀ o, st.found.isCode o = true → Reaches sw base o
  /-- A word is pushed only as the entry, or because flow goes on to it from code. -/
  seen_from : ∀ a ∈ st.seen, a = 0 ∨ ∃ o, st.found.isCode o = true ∧ FlowsTo sw base o a
  /-- Where flow goes on from code has been pushed. -/
  closed : ∀ o a, st.found.isCode o = true → FlowsTo sw base o a → a ∈ st.seen
  /-- A pushed word that has left the worklist is code, or starts no instruction. -/
  done : ∀ a ∈ st.seen, a ∉ st.queue → st.found.isCode a = true ∨ instrAt sw a = none
  /-- The labels are those of the branches of the code found. -/
  labels : ∀ t, LabelFrom sw base (fun o => st.found.isCode o = true) t (st.found.labelAt t)

end Invariant

section InvariantLemmas

variable {sw : Array (Option Instruction)} {base : UInt32}

theorem isCode_start (o : Nat) : (searchStart sw).found.isCode o = false := by
  simp only [searchStart, Flow.isCode, Array.getElem?_replicate]
  split <;> rfl

theorem labelAt_start (t : Nat) : (searchStart sw).found.labelAt t = none := by
  simp only [searchStart, Flow.labelAt, Array.getElem?_replicate]
  split <;> rfl

theorem searchInv_start : SearchInv sw base (searchStart sw) where
  reached_size := by simp [searchStart]
  labels_size := by simp [searchStart]
  entry_seen := by simp [searchStart]
  queue_seen a ha := ha
  sound o ho := by simp [isCode_start] at ho
  seen_from a ha := by simp_all [searchStart]
  closed o a ho := by simp [isCode_start] at ho
  done a ha hq := absurd ha hq
  labels t := by simp [LabelFrom, isCode_start, labelAt_start]

/-- Dropping an offset that is code already, or starts no instruction, keeps the invariant. -/
theorem SearchInv.drop {q₁ q₂ seen : List Nat} {off : Nat} {fl : Flow}
    (h : SearchInv sw base ⟨q₁ ++ off :: q₂, seen, fl⟩)
    (hoff : fl.isCode off = true ∨ instrAt sw off = none) :
    SearchInv sw base ⟨q₁ ++ q₂, seen, fl⟩ where
  reached_size := h.reached_size
  labels_size := h.labels_size
  entry_seen := h.entry_seen
  queue_seen a ha := h.queue_seen a (by
    simp only [List.mem_append, List.mem_cons] at ha ⊢
    exact ha.imp_right Or.inr)
  sound := h.sound
  seen_from := h.seen_from
  closed := h.closed
  done a ha hq := by
    by_cases hao : a = off
    · exact hao ▸ hoff
    · refine h.done a ha ?_
      simp only [List.mem_append, List.mem_cons, not_or] at hq ⊢
      exact ⟨hq.1, hao, hq.2⟩
  labels := h.labels

/-- Following a decoded instruction that is not code yet keeps the invariant. -/
theorem SearchInv.follow {q₁ q₂ seen : List Nat} {off : Nat} {fl : Flow} {i : Instruction}
    (h : SearchInv sw base ⟨q₁ ++ off :: q₂, seen, fl⟩) (hi : instrAt sw off = some i)
    (hnew : fl.isCode off = false) :
    SearchInv sw base
      ⟨(pushAll (successors sw base off i) (q₁ ++ q₂) seen).1,
        (pushAll (successors sw base off i) (q₁ ++ q₂) seen).2,
        ⟨fl.reached.setIfInBounds off true, branchLabels sw base i fl.labels⟩⟩ := by
  have hlt : off < fl.reached.size := h.reached_size ▸ lt_of_instrAt hi
  have hcode : ∀ o, Flow.isCode ⟨fl.reached.setIfInBounds off true,
      branchLabels sw base i fl.labels⟩ o = true ↔ o = off ∨ fl.isCode o = true :=
    isCode_set hlt _
  have hseen : ∀ a, a ∈ (pushAll (successors sw base off i) (q₁ ++ q₂) seen).2 ↔
      a ∈ seen ∨ FlowsTo sw base off a := fun a => by
    rw [mem_pushAll_seen, flowsTo_iff hi]
  have hqueue : ∀ a, a ∈ (pushAll (successors sw base off i) (q₁ ++ q₂) seen).1 ↔
      a ∈ q₁ ++ q₂ ∨ (a ∈ (pushAll (successors sw base off i) (q₁ ++ q₂) seen).2 ∧ a ∉ seen) :=
    fun a => mem_pushAll_queue _
  -- the offset taken out is reachable: it is the entry, or flow goes on to it from code
  have hreach : Reaches sw base off := by
    have hd : (instrAt sw off).isSome := by simp [hi]
    rcases h.seen_from off (h.queue_seen off (by simp)) with rfl | ⟨o, ho, hf⟩
    · exact .entry hd
    · exact .step (h.sound o ho) hf hd
  refine ⟨?_, ?_, ?_, ?_, ?_, ?_, ?_, ?_, ?_⟩
  · simpa using h.reached_size
  · simpa [size_branchLabels] using h.labels_size
  · exact (hseen 0).2 (Or.inl h.entry_seen)
  · intro a ha
    rcases (hqueue a).1 ha with ha | ⟨ha, -⟩
    · refine (hseen a).2 (Or.inl (h.queue_seen a ?_))
      simp only [List.mem_append, List.mem_cons] at ha ⊢
      exact ha.imp_right Or.inr
    · exact ha
  · intro o ho
    rcases (hcode o).1 ho with rfl | ho
    · exact hreach
    · exact h.sound o ho
  · intro a ha
    rcases (hseen a).1 ha with ha | hf
    · rcases h.seen_from a ha with rfl | ⟨o, ho, hf⟩
      · exact Or.inl rfl
      · exact Or.inr ⟨o, (hcode o).2 (Or.inr ho), hf⟩
    · exact Or.inr ⟨off, (hcode off).2 (Or.inl rfl), hf⟩
  · intro o a ho hf
    rcases (hcode o).1 ho with rfl | ho
    · exact (hseen a).2 (Or.inr hf)
    · exact (hseen a).2 (Or.inl (h.closed o a ho hf))
  · intro a ha hq
    -- a word first pushed now is still in the worklist, so `a` was pushed before
    have hs : a ∈ seen := by
      by_cases hs : a ∈ seen
      · exact hs
      · exact absurd ((hqueue a).2 (Or.inr ⟨ha, hs⟩)) hq
    have hq' : a ∉ q₁ ++ q₂ := fun hm => hq ((hqueue a).2 (Or.inl hm))
    by_cases hao : a = off
    · exact Or.inl ((hcode a).2 (Or.inl hao))
    · have hold : a ∉ q₁ ++ off :: q₂ := by
        simp only [List.mem_append, List.mem_cons, not_or] at hq' ⊢
        exact ⟨hq'.1, hao, hq'.2⟩
      exact (h.done a hs hold).imp_left fun hc => (hcode a).2 (Or.inr hc)
  · intro t
    rw [labelAt_branchLabels hi h.labels_size]
    exact (h.labels t).follow hcode

/-- The step lemma: every step of the search keeps the invariant, whichever offset it takes. -/
theorem SearchInv.step {st st' : SearchState} (h : SearchInv sw base st)
    (hs : SearchStep sw base st st') : SearchInv sw base st' := by
  cases hs with
  | take q₁ q₂ seen off fl =>
    unfold visit
    cases hi : instrAt sw off with
    | none => exact h.drop (Or.inr hi)
    | some i =>
      by_cases hc : fl.isCode off = true
      · simpa only [hc, if_true] using h.drop (Or.inl hc)
      · simpa only [hc, if_false, Bool.false_eq_true] using h.follow hi (by simpa using hc)

/-- The run lemma: the invariant holds along every run of the search from its start. -/
theorem SearchInv.of_run {st : SearchState}
    (h : Relation.ReflTransGen (SearchStep sw base) (searchStart sw) st) :
    SearchInv sw base st := by
  induction h with
  | refl => exact searchInv_start
  | tail _ hs ih => exact ih.step hs

/-- Once the worklist is empty, the code found is exactly the reachable code. -/
theorem SearchInv.isCode_iff {seen : List Nat} {fl : Flow} (h : SearchInv sw base ⟨[], seen, fl⟩)
    (o : Nat) : fl.isCode o = true ↔ Reaches sw base o := by
  refine ⟨h.sound o, fun hr => ?_⟩
  -- with the worklist empty, every decoded word that was pushed is code
  have hdone : ∀ a ∈ seen, (instrAt sw a).isSome → fl.isCode a = true := fun a ha hd =>
    (h.done a ha List.not_mem_nil).resolve_right (by simpa [Option.isSome_iff_ne_none] using hd)
  induction hr with
  | entry hd => exact hdone 0 h.entry_seen hd
  | step _ hf hd ih => exact hdone _ (h.closed _ _ ih hf) hd

theorem SearchInv.labelFrom_reaches {seen : List Nat} {fl : Flow}
    (h : SearchInv sw base ⟨[], seen, fl⟩) (t : Nat) :
    LabelFrom sw base (Reaches sw base) t (fl.labelAt t) := by
  have hP : (fun o => fl.isCode o = true) = Reaches sw base :=
    funext fun o => propext (h.isCode_iff o)
  exact hP ▸ h.labels t

end InvariantLemmas

/-! ## §4. The search stops -/

/-- What bounds the search: the words pushed are distinct, even and below `sw.size + 4`. -/
structure SearchBound (sw : Array (Option Instruction)) (st : SearchState) : Prop where
  nodup : st.seen.Nodup
  bounded : ∀ a ∈ st.seen, a % 2 = 0 ∧ a < sw.size + 4

/-- The steps the search has left at most: the worklist, and the even words below
`sw.size + 4` that were never pushed. -/
def budget (sw : Array (Option Instruction)) (st : SearchState) : Nat :=
  st.queue.length + ((sw.size + 5) / 2 - st.seen.length)

section Termination

variable {sw : Array (Option Instruction)} {base : UInt32}

theorem flowsTo_bounded {o a : Nat} (h : FlowsTo sw base o a) :
    a % 2 = 0 ∧ a < sw.size + 4 := by
  have hw : ∀ x, wordOf x % 2 = 0 ∧ wordOf x ≤ x := fun x => by unfold wordOf; omega
  rcases h with ⟨i, hi, -, rfl⟩ | ⟨t, hb, rfl⟩
  · have := lt_of_instrAt hi
    have := i.size_le_four
    have := hw (o + i.size)
    omega
  · have ht : ∃ i, targetOffset? base sw.size i = some t := by
      rcases hb with ⟨i, -, -, ht⟩ | ⟨i, -, -, ht⟩ <;> exact ⟨i, ht⟩
    obtain ⟨i, ht⟩ := ht
    have := targetOffset?_lt ht
    have := hw t
    omega

theorem SearchBound.length_le {st : SearchState} (h : SearchBound sw st) :
    st.seen.length ≤ (sw.size + 5) / 2 := by
  -- halving is one to one on even numbers, and the halves lie below `(sw.size + 5) / 2`
  have hnd : (st.seen.map (· / 2)).Nodup := by
    refine List.Nodup.map_on (fun a ha b hb hab => ?_) h.nodup
    have := h.bounded a ha
    have := h.bounded b hb
    omega
  have hsub : st.seen.map (· / 2) ⊆ List.range ((sw.size + 5) / 2) := by
    intro x hx
    obtain ⟨a, ha, rfl⟩ := List.mem_map.1 hx
    have := h.bounded a ha
    simp only [List.mem_range]
    omega
  simpa using (List.subperm_of_subset hnd hsub).length_le

theorem searchBound_start : SearchBound sw (searchStart sw) where
  nodup := by simp [searchStart]
  bounded a ha := by simp_all [searchStart]

/-- Every step keeps the bound and spends one unit of the budget. -/
theorem SearchBound.step {st st' : SearchState} (h : SearchBound sw st)
    (hs : SearchStep sw base st st') : SearchBound sw st' ∧ budget sw st' + 1 = budget sw st := by
  cases hs with
  | take q₁ q₂ seen off fl =>
    have hlen : seen.length ≤ (sw.size + 5) / 2 := h.length_le
    unfold visit
    cases hi : instrAt sw off with
    | none => exact ⟨⟨h.nodup, h.bounded⟩, by simp [budget]; omega⟩
    | some i =>
      by_cases hc : fl.isCode off = true
      · simp only [hc, if_true]
        exact ⟨⟨h.nodup, h.bounded⟩, by simp [budget]; omega⟩
      · simp only [hc, if_false, Bool.false_eq_true]
        have hb' : SearchBound sw ⟨(pushAll (successors sw base off i) (q₁ ++ q₂) seen).1,
            (pushAll (successors sw base off i) (q₁ ++ q₂) seen).2, fl⟩ := by
          refine ⟨nodup_pushAll _ h.nodup, fun a ha => ?_⟩
          rcases (mem_pushAll_seen _).1 ha with ha | hf
          · exact h.bounded a ha
          · exact flowsTo_bounded ((flowsTo_iff hi).2 hf)
        refine ⟨⟨hb'.nodup, hb'.bounded⟩, ?_⟩
        have hlen' := hb'.length_le
        have hpush := length_pushAll (successors sw base off i) (q₁ ++ q₂) seen
        simp only [budget, List.length_append, List.length_cons] at hlen' hpush ⊢
        omega

/-- No run of the search goes on forever, whichever offsets its steps take. -/
theorem SearchBound.acc {st : SearchState} (h : SearchBound sw st) :
    Acc (fun st' st => SearchStep sw base st st') st := by
  -- induction on a bound of the budget, which every step lowers
  suffices hm : ∀ m st, budget sw st < m → SearchBound sw st →
      Acc (fun st' st => SearchStep sw base st st') st from
    hm _ st (Nat.lt_succ_self _) h
  intro m
  induction m with
  | zero => intro st hm; omega
  | succ m ih =>
    intro st hm h
    refine Acc.intro st fun st' hs => ?_
    obtain ⟨h', hbud⟩ := h.step hs
    exact ih st' (by omega) h'

/-- The search in worklist order, given its budget as fuel, is a run that empties the
worklist. -/
theorem explore_completes (fuel : Nat) (st : SearchState) (h : SearchBound sw st)
    (hf : budget sw st ≤ fuel) :
    ∃ st', Relation.ReflTransGen (SearchStep sw base) st st' ∧ st'.queue = [] ∧
      explore sw base fuel st.queue st.seen st.found = st'.found := by
  induction fuel generalizing st with
  | zero =>
    have hq : st.queue = [] := List.eq_nil_of_length_eq_zero (by unfold budget at hf; omega)
    exact ⟨st, .refl, hq, by simp [explore]⟩
  | succ fuel ih =>
    obtain ⟨queue, seen, fl⟩ := st
    cases queue with
    | nil => exact ⟨_, .refl, rfl, by simp [explore]⟩
    | cons off queue =>
      have hs : SearchStep sw base ⟨off :: queue, seen, fl⟩ (visit sw base off queue seen fl) :=
        SearchStep.take [] queue seen off fl
      obtain ⟨h', hbud⟩ := h.step hs
      obtain ⟨st', hr, hq, he⟩ := ih _ h' (by omega)
      exact ⟨st', .head hs hr, hq, by rw [explore_cons]; exact he⟩

end Termination

/-! ## §5. What the flow search computes -/

section Flow

variable (sw : Array (Option Instruction)) (base : UInt32)

/-- The flow search is a run of the search that empties its worklist. -/
theorem flow_completes :
    ∃ st, Relation.ReflTransGen (SearchStep sw base) (searchStart sw) st ∧ st.queue = [] ∧
      flow sw base = st.found := by
  rw [flow_eq_explore]
  refine explore_completes _ _ searchBound_start ?_
  simp only [budget, searchStart, List.length_cons, List.length_nil]
  omega

theorem flow_isCode_iff (o : Nat) : (flow sw base).isCode o = true ↔ Reaches sw base o := by
  obtain ⟨⟨queue, seen, fl⟩, hr, hq, hf⟩ := flow_completes sw base
  simp only at hq hf
  subst hq
  rw [hf]
  exact (SearchInv.of_run hr).isCode_iff o

theorem flow_labelFrom (t : Nat) :
    LabelFrom sw base (Reaches sw base) t ((flow sw base).labelAt t) := by
  obtain ⟨⟨queue, seen, fl⟩, hr, hq, hf⟩ := flow_completes sw base
  simp only at hq hf
  subst hq
  rw [hf]
  exact (SearchInv.of_run hr).labelFrom_reaches t

/-- Every run of the search that empties its worklist, in whatever order it took the
offsets, ends with what the flow search computes. -/
theorem found_eq_flow {st : SearchState}
    (hr : Relation.ReflTransGen (SearchStep sw base) (searchStart sw) st) (hq : st.queue = []) :
    st.found = flow sw base := by
  obtain ⟨⟨queue', seen', fl'⟩, hr', hq', hf⟩ := flow_completes sw base
  obtain ⟨queue, seen, fl⟩ := st
  simp only at hq hq' hf ⊢
  subst hq hq'
  rw [hf]
  -- both runs end where the invariant pins down the code and the labels
  have h := SearchInv.of_run hr
  have h' := SearchInv.of_run hr'
  refine Flow.eq_of_isCode_labelAt (h.reached_size.trans h'.reached_size.symm)
    (h.labels_size.trans h'.labels_size.symm) (fun o => ?_) (fun t => ?_)
  · exact Bool.eq_iff_iff.2 ((h.isCode_iff o).trans (h'.isCode_iff o).symm)
  · exact (h.labelFrom_reaches t).unique (h'.labelFrom_reaches t)

end Flow

/-- The flow search finds exactly the reachable code, for the sweep of any buffer: its code
is the least set of decoded offsets closed under flow, a target is a subroutine when a reached
call names it and a location when only reached jumps do, every run of the search stops
whatever offsets it takes, and every run that empties its worklist ends with the same
result. -/
theorem flow_finds_reachable_code (sw : Array (Option Instruction)) (base : UInt32) :
    (∀ o, (flow sw base).isCode o = true ↔ Reaches sw base o) ∧
    (∀ t, (flow sw base).labelAt t = some .subroutine ↔
      ∃ o, Reaches sw base o ∧ BranchesTo sw base o .call t) ∧
    (∀ t, (flow sw base).labelAt t = some .location ↔
      (∃ o, Reaches sw base o ∧ BranchesTo sw base o .jump t) ∧
        ¬∃ o, Reaches sw base o ∧ BranchesTo sw base o .call t) ∧
    (∀ t, (flow sw base).labelAt t = none ↔
      ¬∃ o, Reaches sw base o ∧ (BranchesTo sw base o .jump t ∨ BranchesTo sw base o .call t)) ∧
    Acc (fun st' st => SearchStep sw base st st') (searchStart sw) ∧
    ∀ st, Relation.ReflTransGen (SearchStep sw base) (searchStart sw) st → st.queue = [] →
      st.found = flow sw base :=
  ⟨flow_isCode_iff sw base, fun t => (flow_labelFrom sw base t).subroutine_iff,
    fun t => (flow_labelFrom sw base t).location_iff, fun t => (flow_labelFrom sw base t).none_iff,
    searchBound_start.acc, fun _ hr hq => found_eq_flow sw base hr hq⟩

end C166Codec.Listing
