import C166Codec.Proofs.CaseFold
import C166Codec.Proofs.TwoPass
import C166Codec.Source.Program
import Mathlib.Data.List.Forall2
/-!
# Assembly ignores letter case

Two sources that differ only in the case of ASCII letters outside the quoted strings of `db`
directives (`CaseVariant`) assemble alike: they bind the same labels, and either both give the
same bytes or both stop at the same line with the same class of error. A single line encodes
alike in either case (`assembly_ignores_letter_case`).

The proof follows the passes of `assemble`.

* §1 selection, binding and the ext window read the forms of operands, never their texts,
  which appear only inside errors.
* §2 a directive's size and bytes depend on its arguments up to case, and on the quoted
  strings of `db` as written.
* §3 the sizing and emitting passes agree on nodes that are case variants (`NodeVariant`).
* §4 reading case variant lines gives case variant nodes, since the statement reader commutes
  with folding.
* §5 whole programs and single lines.
-/

namespace C166Codec

open Text

/-! ## §1. Selection reads operand forms only -/

namespace Select

variable (c : Context) (mn : String) (len : Nat) (k : SlotKind) (o : Operand)

@[simp] theorem kindFits_foldRaw : kindFits k o.foldRaw = kindFits k o := rfl

@[simp] theorem widthFits_foldRaw : widthFits k o.foldRaw = widthFits k o := rfl

@[simp] theorem rangeFits_foldRaw : rangeFits c mn len k o.foldRaw = rangeFits c mn len k o := rfl

@[simp] theorem indexFits_foldRaw : indexFits k o.foldRaw = indexFits k o := rfl

@[simp] theorem bindSlot_foldRaw (fs : Fields) (s : Slot) :
    bindSlot c mn len fs s o.foldRaw = bindSlot c mn len fs s o := rfl

theorem bind_map_foldRaw (d : Descriptor) (ops : List Operand) :
    bind d (ops.map Operand.foldRaw) c mn = bind d ops c mn := by
  simp only [bind, List.zip_map_right, List.foldl_map, Prod.map_fst, Prod.map_snd, id,
    bindSlot_foldRaw]

theorem accepts_map_foldRaw (d : Descriptor) (ops : List Operand) :
    accepts d (ops.map Operand.foldRaw) c mn = accepts d ops c mn := by
  simp only [accepts, Rule.all, Rule.check, List.zip_map_right, List.all_map, Function.comp_def,
    Prod.map_fst, Prod.map_snd, id, kindFits_foldRaw, widthFits_foldRaw, rangeFits_foldRaw,
    indexFits_foldRaw, List.length_map, bind_map_foldRaw]

end Select

/-- Folding the operand texts changes at most the texts inside selection's errors. -/
theorem select_map_foldRaw (mn : String) (ops : List Operand) (c : Context) :
    (select mn (ops.map Operand.foldRaw) c).mapError SourceError.errorClass =
      (select mn ops c).mapError SourceError.errorClass := by
  unfold select
  -- the undefined-label search reads forms only, so it finds the same operand
  have hp : ((fun o : Operand => o.isLabel && !c.lax && (c.lookup o.label).isNone) ∘
      Operand.foldRaw) = fun o => o.isLabel && !c.lax && (c.lookup o.label).isNone := rfl
  simp only [Select.accepts_map_foldRaw, Select.bind_map_foldRaw, List.find?_map, hp]
  split
  · rfl
  · split
    · rfl
    · cases ops.find? (fun o => o.isLabel && !c.lax && (c.lookup o.label).isNone) <;> rfl

theorem encodeIn_map_foldRaw (mn : String) (ops : List Operand) (c : Context) :
    (encodeIn mn (ops.map Operand.foldRaw) c).mapError SourceError.errorClass =
      (encodeIn mn ops c).mapError SourceError.errorClass := by
  have h := select_map_foldRaw mn ops c
  unfold encodeIn
  cases h1 : select mn (ops.map Operand.foldRaw) c <;> cases h2 : select mn ops c <;>
    simp_all [Except.mapError]

theorem SourceWindow.step_map_foldRaw (w : SourceWindow) (mn : String) (ops : List Operand) :
    w.step mn (ops.map Operand.foldRaw) = w.step mn ops := by
  simp only [SourceWindow.step, List.getLast?_map, Option.map_map]
  rfl

variable {ops ops' : List Operand}

theorem encodeIn_variant (mn : String) (c : Context)
    (h : ops.map Operand.foldRaw = ops'.map Operand.foldRaw) :
    (encodeIn mn ops c).mapError SourceError.errorClass =
      (encodeIn mn ops' c).mapError SourceError.errorClass := by
  rw [← encodeIn_map_foldRaw, h, encodeIn_map_foldRaw]

theorem SourceWindow.step_variant (w : SourceWindow) (mn : String)
    (h : ops.map Operand.foldRaw = ops'.map Operand.foldRaw) : w.step mn ops = w.step mn ops' := by
  rw [← SourceWindow.step_map_foldRaw, h, SourceWindow.step_map_foldRaw]

/-! ## §2. Data directives -/

namespace Directive

theorem quoted?_foldText (s : String) : quoted? (foldText s) = (quoted? s).map foldText := by
  unfold quoted?
  rw [toList_foldText]
  cases s.toList with
  | nil => rfl
  | cons q rest =>
    simp only [List.map_cons, List.getLast?_map, foldChar_eq_iff (d := '\'') rfl,
      foldChar_eq_iff (d := '"') rfl]
    by_cases hq : q = '\'' ∨ q = '"'
    · -- a quote folds to itself, and so does only the same quote at the end
      have hfq : foldChar q = q := by rcases hq with rfl | rfl <;> rfl
      have hx : ∀ x, foldChar x = q ↔ x = q := by
        rcases hq with rfl | rfl <;> exact fun x => foldChar_eq_iff rfl
      rw [hfq]
      cases rest.getLast? with
      | none => simp
      | some x =>
        by_cases hxq : x = q
        · simp [hxq, hq, hfq, List.map_dropLast, foldText_ofList]
        · simp [hxq, hx]
    · simp [hq]

theorem constant_foldText (labels : List (String × UInt32)) (s : String) :
    (constant labels (foldText s)).mapError SourceError.errorClass =
      (constant labels s).mapError SourceError.errorClass := by
  unfold constant
  simp only [toList_foldText, Lexeme.isName_map_foldChar, Lexeme.isHex_map_foldChar,
    lower_foldText]
  split
  · cases labels.lookup (lower s) <;> rfl
  · have h := Literal.parse_foldText s
    cases h1 : Literal.parse (foldText s) <;> cases h2 : Literal.parse s <;>
      simp_all [Except.toOption, Except.mapError, SourceError.errorClass]

/-- The arguments of a directive `d` written twice, differing only in the case of letters
outside the quoted strings of a db directive. -/
structure ArgsVariant (d : Directive) (args args' : List String) : Prop where
  fold_eq : args.map foldText = args'.map foldText
  quoted_eq : d = .db → args.map quoted? = args'.map quoted?

theorem ArgsVariant.tail {d : Directive} {a a' : String} {args args' : List String}
    (h : ArgsVariant d (a :: args) (a' :: args')) : ArgsVariant d args args' :=
  ⟨(List.cons.inj h.fold_eq).2, fun hd => (List.cons.inj (h.quoted_eq hd)).2⟩

theorem ArgsVariant.length_eq {d : Directive} {args args' : List String}
    (h : ArgsVariant d args args') : args.length = args'.length := by
  simpa using congrArg List.length h.fold_eq

theorem ArgsVariant.isEmpty_eq {d : Directive} {args args' : List String}
    (h : ArgsVariant d args args') : args.isEmpty = args'.isEmpty := by
  rw [← List.isEmpty_map (f := foldText), h.fold_eq, List.isEmpty_map]

theorem item_variant (d : Directive) (labels : List (String × UInt32)) {a a' : String}
    (hf : foldText a = foldText a') (hq : d = .db → quoted? a = quoted? a') :
    (item d labels a).mapError SourceError.errorClass =
      (item d labels a').mapError SourceError.errorClass := by
  have hq' : (quoted? a).map foldText = (quoted? a').map foldText := by
    rw [← quoted?_foldText, hf, quoted?_foldText]
  have hc : (constant labels a).mapError SourceError.errorClass =
      (constant labels a').mapError SourceError.errorClass := by
    rw [← constant_foldText, hf, constant_foldText]
  unfold item
  cases h1 : quoted? a <;> cases h2 : quoted? a' <;> simp only [h1, h2, Option.map_none,
    Option.map_some, reduceCtorEq] at hq'
  · -- neither is a string: the constants have one value, or fail with one class
    cases hc1 : constant labels a <;> cases hc2 : constant labels a' <;>
      simp only [hc1, hc2, Except.mapError, Except.error.injEq, Except.ok.injEq, reduceCtorEq] at hc
    · exact congrArg Except.error hc
    · subst hc
      dsimp only
      split_ifs <;> rfl
  · by_cases hd : d = .db
    · have := hq hd
      simp_all
    · simp [hd]

theorem items_variant (d : Directive) (labels : List (String × UInt32)) {args args' : List String}
    (h : ArgsVariant d args args') :
    (items d labels args).mapError SourceError.errorClass =
      (items d labels args').mapError SourceError.errorClass := by
  induction args generalizing args' with
  | nil => cases args' with
    | nil => rfl
    | cons => exact absurd h.fold_eq (by simp)
  | cons a rest ih => cases args' with
    | nil => exact absurd h.fold_eq (by simp)
    | cons a' rest' =>
      have hi := item_variant d labels (List.cons.inj h.fold_eq).1
        (fun hd => (List.cons.inj (h.quoted_eq hd)).1)
      unfold items
      cases h1 : item d labels a <;> cases h2 : item d labels a' <;>
        simp only [h1, h2, Except.mapError, Except.error.injEq, Except.ok.injEq, reduceCtorEq] at hi
      · exact congrArg Except.error hi
      · subst hi
        rw [Except.mapError_map, Except.mapError_map, ih h.tail]

theorem size_variant {d : Directive} {args args' : List String} (h : ArgsVariant d args args')
    (pc : UInt32) : d.size args pc = d.size args' pc := by
  cases d with
  | even => simp only [size, h.isEmpty_eq]
  | db =>
    -- a db directive's size reads its arguments only through their quoted strings
    have hs : ∀ l : List String,
        l.foldl (fun n a => n + ((quoted? a).map String.utf8ByteSize).getD 1) 0 =
          (l.map quoted?).foldl (fun n q => n + (q.map String.utf8ByteSize).getD 1) 0 :=
      fun l => by rw [List.foldl_map]
    simp only [size, hs, h.quoted_eq rfl]
  | dw => simp only [size, h.length_eq]

theorem generate_variant {d : Directive} {args args' : List String} (h : ArgsVariant d args args')
    (pc : UInt32) (labels : List (String × UInt32)) :
    (d.generate args pc labels).mapError SourceError.errorClass =
      (d.generate args' pc labels).mapError SourceError.errorClass := by
  cases d with
  | even => rfl
  | db | dw =>
    simp only [generate, h.isEmpty_eq]
    split
    · rfl
    · exact items_variant _ labels h

end Directive

/-! ## §3. The passes over nodes -/

/-- One item of a line written twice, differing only in letter case outside db strings. -/
inductive ItemVariant : Item → Item → Prop
  | label (l : String) : ItemVariant (.label l) (.label l)
  | directive (d : Directive) {args args' : List String} :
      Directive.ArgsVariant d args args' → ItemVariant (.directive d args) (.directive d args')
  | instruction (mn : String) {ops ops' : List Operand} :
      ops.map Operand.foldRaw = ops'.map Operand.foldRaw →
        ItemVariant (.instruction mn ops) (.instruction mn ops')

/-- Nodes of one line number whose items are case variants; their texts may differ. -/
structure NodeVariant (n n' : Node) : Prop where
  line_eq : n.line = n'.line
  item : ItemVariant n.item n'.item

/-- Where and why a line failed, without the texts that letter case can change. -/
def LineError.site (e : LineError) : Nat × ErrorClass := (e.line, e.err.errorClass)

/-- A failure without its texts: its line, and its class when it is a line error. -/
def AssemblyFailure.site : AssemblyFailure → Nat × Option ErrorClass
  | .line e => (e.line, some e.err.errorClass)
  | .sizeChanged n => (n, none)

/-- The sizing pass binds the same labels and sizes on case variants, or stops at the same line
with the same class. -/
theorem sizes_variant {ns ns' : List Node} (h : List.Forall₂ NodeVariant ns ns') (pc : UInt32)
    (labels : List (String × UInt32)) (w : SourceWindow) :
    (Program.sizes pc labels w ns).mapError (Prod.map LineError.site id) =
      (Program.sizes pc labels w ns').mapError (Prod.map LineError.site id) := by
  induction h generalizing pc labels w with
  | nil => rfl
  | @cons n n' rest rest' hn _ ih =>
    obtain ⟨line, text, item⟩ := n
    obtain ⟨line', text', item'⟩ := n'
    obtain ⟨hl, hi⟩ := hn
    dsimp only at hl hi
    subst hl
    cases hi with
    | label l =>
      simp only [Program.sizes]
      split
      · rfl
      · rw [Except.mapError_map, Except.mapError_map, ih]
    | directive d hargs =>
      simp only [Program.sizes, Directive.size_variant hargs]
      split
      · rfl
      · rw [Except.mapError_map, Except.mapError_map, ih]
    | instruction mn hops =>
      have he := encodeIn_variant mn ⟨pc, labels, true, w.active⟩ hops
      simp only [Program.sizes, SourceWindow.step_variant w mn hops]
      cases h1 : encodeIn mn _ ⟨pc, labels, true, w.active⟩ <;>
        cases h2 : encodeIn mn _ ⟨pc, labels, true, w.active⟩ <;>
        simp only [h1, h2, Except.mapError, Except.error.injEq, Except.ok.injEq, reduceCtorEq] at he
      · simp only [Except.mapError, Prod.map, LineError.site, he, id]
      · subst he
        rw [Except.mapError_map, Except.mapError_map, ih]

/-- The emitting pass writes the same bytes on case variants, or fails at the same line in the
same way. -/
theorem emit_variant {ns ns' : List Node} (h : List.Forall₂ NodeVariant ns ns') (pc : UInt32)
    (labels : List (String × UInt32)) (w : SourceWindow) (ss : List Nat) :
    (Program.emit pc labels w ns ss).mapError AssemblyFailure.site =
      (Program.emit pc labels w ns' ss).mapError AssemblyFailure.site := by
  induction h generalizing pc w ss with
  | nil => cases ss <;> rfl
  | @cons n n' rest rest' hn _ ih =>
    cases ss with
    | nil => rfl
    | cons s ss =>
      obtain ⟨line, text, item⟩ := n
      obtain ⟨line', text', item'⟩ := n'
      obtain ⟨hl, hi⟩ := hn
      dsimp only at hl hi
      subst hl
      cases hi with
      | label l => exact ih pc w ss
      | @directive d args args' hargs =>
        have hg := Directive.generate_variant hargs pc labels
        simp only [Program.emit]
        cases h1 : d.generate args pc labels <;> cases h2 : d.generate args' pc labels <;>
          simp only [h1, h2, Except.mapError, Except.error.injEq, Except.ok.injEq, reduceCtorEq] at hg
        · simp only [Except.mapError, AssemblyFailure.site, hg]
        · subst hg
          dsimp only
          split
          · rfl
          · rw [Except.mapError_map, Except.mapError_map, ih]
      | @instruction mn ops ops' hops =>
        have he := encodeIn_variant mn ⟨pc, labels, false, w.active⟩ hops
        simp only [Program.emit, SourceWindow.step_variant w mn hops]
        cases h1 : encodeIn mn ops ⟨pc, labels, false, w.active⟩ <;>
          cases h2 : encodeIn mn ops' ⟨pc, labels, false, w.active⟩ <;>
          simp only [h1, h2, Except.mapError, Except.error.injEq, Except.ok.injEq, reduceCtorEq] at he
        · simp only [Except.mapError, AssemblyFailure.site, he]
        · subst he
          dsimp only
          split
          · rfl
          · rw [Except.mapError_map, Except.mapError_map, ih]

/-! ## §4. Reading the lines -/

/-- Lists whose images agree under two functions are related pointwise by both. -/
theorem forall₂_of_map_eq_map {α β γ : Type} {f : α → β} {g : α → γ} :
    ∀ {l l' : List α}, l.map f = l'.map f → l.map g = l'.map g →
      List.Forall₂ (fun a b => f a = f b ∧ g a = g b) l l'
  | [], [], _, _ => .nil
  | _ :: _, [], h, _ | [], _ :: _, h, _ => absurd h (by simp)
  | _ :: _, _ :: _, hf, hg =>
    .cons ⟨(List.cons.inj hf).1, (List.cons.inj hg).1⟩
      (forall₂_of_map_eq_map (List.cons.inj hf).2 (List.cons.inj hg).2)

/-- Two results that agree: both fail with errors related by `E`, or both succeed with values
related by `R`. -/
inductive ResultRel {ε ε' α β : Type} (E : ε → ε' → Prop) (R : α → β → Prop) :
    Except ε α → Except ε' β → Prop
  | error {e : ε} {e' : ε'} : E e e' → ResultRel E R (.error e) (.error e')
  | ok {a : α} {b : β} : R a b → ResultRel E R (.ok a) (.ok b)

/-- The quoted strings of a db directive's arguments; nothing for any other statement. -/
def Statement.quotedStrings (st : Statement) : List (Option String) :=
  match st.action with
  | .directive .db args => args.map Directive.quoted?
  | _ => []

/-- The quoted db strings of a line, when it can be read. -/
def Statement.lineStrings (l : List Char) : Option (List (Option String)) :=
  (Statement.parse l).toOption.map Statement.quotedStrings

/-- A line written twice, differing only in the case of letters outside the quoted strings of
a db directive. -/
structure LineVariant (l l' : List Char) : Prop where
  fold_eq : l.map foldChar = l'.map foldChar
  quoted_eq : Statement.lineStrings l = Statement.lineStrings l'

theorem Program.items_variant {st st' : Statement} (hf : st.foldCase = st'.foldCase)
    (hq : st.quotedStrings = st'.quotedStrings) :
    List.Forall₂ ItemVariant (Program.items st) (Program.items st') := by
  obtain ⟨lab, act⟩ := st
  obtain ⟨lab', act'⟩ := st'
  simp only [Statement.foldCase, Statement.mk.injEq] at hf
  obtain ⟨rfl, hact⟩ := hf
  unfold Program.items
  refine List.rel_append ?_ ?_
  · cases lab <;> simp [ItemVariant.label]
  · cases act <;> cases act' <;> simp only [Action.foldCase, reduceCtorEq, Action.directive.injEq,
      Action.instruction.injEq] at hact
    · exact .nil
    · obtain ⟨rfl, hargs⟩ := hact
      refine List.Forall₂.cons (.directive _ ⟨hargs, fun hd => ?_⟩) .nil
      subst hd
      simpa [Statement.quotedStrings] using hq
    · obtain ⟨rfl, hops⟩ := hact
      exact List.Forall₂.cons (.instruction _ hops) .nil

theorem parse_variant {l l' : List Char} (h : LineVariant l l') :
    ResultRel (fun e e' => e.errorClass = e'.errorClass)
      (fun st st' => List.Forall₂ ItemVariant (Program.items st) (Program.items st'))
      (Statement.parse l) (Statement.parse l') := by
  have hp := Statement.parse_map_foldChar l
  rw [h.fold_eq, Statement.parse_map_foldChar] at hp
  have hq := h.quoted_eq
  unfold Statement.lineStrings at hq
  cases h1 : Statement.parse l <;> cases h2 : Statement.parse l' <;>
    simp only [h1, h2, Except.map, Except.mapError, Except.error.injEq, Except.ok.injEq,
      reduceCtorEq, Except.toOption, Option.map_some, Option.some.injEq] at hp hq
  · exact .error hp.symm
  · exact .ok (Program.items_variant hp.symm hq)

/-- Reading case variant lines gives nodes that are case variants, or stops at the same line
with the same class. -/
theorem parseLines_variant {ls ls' : List (List Char)} (h : List.Forall₂ LineVariant ls ls')
    (n : Nat) :
    ResultRel (fun e e' => e.site = e'.site) (List.Forall₂ NodeVariant)
      (Program.parseLines n ls) (Program.parseLines n ls') := by
  induction h generalizing n with
  | nil => exact .ok .nil
  | @cons l l' rest rest' hl _ ih =>
    simp only [Program.parseLines]
    have hv := parse_variant hl
    generalize Statement.parse l = r at hv ⊢
    generalize Statement.parse l' = r' at hv ⊢
    cases hv with
    | error he => exact .error (by simp only [LineError.site, he])
    | ok hi =>
      have hr := ih (n + 1)
      generalize Program.parseLines (n + 1) rest = x at hr ⊢
      generalize Program.parseLines (n + 1) rest' = x' at hr ⊢
      cases hr with
      | error he => exact .error he
      | ok hns =>
        refine .ok (List.rel_append ?_ hns)
        exact List.forall₂_map_left_iff.2 (List.forall₂_map_right_iff.2 (hi.imp fun _ _ h => ⟨rfl, h⟩))

/-! ## §5. Whole programs and single lines -/

/-- A source text written twice, differing only in the case of ASCII letters outside the
quoted strings of db directives. -/
structure CaseVariant (src src' : String) : Prop where
  fold_eq : src.toList.map foldChar = src'.toList.map foldChar
  quoted_eq : (Statement.lines src.toList).map Statement.lineStrings =
    (Statement.lines src'.toList).map Statement.lineStrings

theorem CaseVariant.lines {src src' : String} (h : CaseVariant src src') :
    List.Forall₂ LineVariant (Statement.lines src.toList) (Statement.lines src'.toList) := by
  have hl : (Statement.lines src.toList).map (·.map foldChar) =
      (Statement.lines src'.toList).map (·.map foldChar) := by
    rw [← Statement.lines_map_foldChar, h.fold_eq, Statement.lines_map_foldChar]
  exact (forall₂_of_map_eq_map hl h.quoted_eq).imp fun _ _ h => ⟨h.1, h.2⟩

theorem assemble_variant {src src' : String} (h : CaseVariant src src') (base : UInt32) :
    (assemble src base).labels = (assemble src' base).labels ∧
      (assemble src base).result.mapError AssemblyFailure.site =
        (assemble src' base).result.mapError AssemblyFailure.site := by
  have hp := parseLines_variant h.lines 1
  unfold assemble
  generalize Program.parseLines 1 (Statement.lines src.toList) = r at hp ⊢
  generalize Program.parseLines 1 (Statement.lines src'.toList) = r' at hp ⊢
  cases hp with
  | error he =>
    simp only [LineError.site, Prod.mk.injEq] at he
    simp only [Except.mapError, AssemblyFailure.site, he, and_self]
  | @ok ns ns' hns =>
    have hs := sizes_variant hns base [] {}
    dsimp only
    cases h1 : Program.sizes base [] {} ns with
    | error p =>
      cases h2 : Program.sizes base [] {} ns' with
      | error p' =>
        obtain ⟨e, ls⟩ := p
        obtain ⟨e', ls'⟩ := p'
        simp only [h1, h2, Except.mapError, Except.error.injEq, Prod.map, LineError.site, id,
          Prod.mk.injEq] at hs
        simp only [Except.mapError, AssemblyFailure.site, hs, and_self]
      | ok q' => simp [h1, h2, Except.mapError] at hs
    | ok q =>
      cases h2 : Program.sizes base [] {} ns' with
      | error p' => simp [h1, h2, Except.mapError] at hs
      | ok q' =>
        simp only [h1, h2, Except.mapError, Except.ok.injEq] at hs
        subst hs
        exact ⟨rfl, emit_variant hns base q.1 {} q.2⟩

theorem map_foldChar_eq_nul {o : Option Char} : o.map foldChar = some '\x00' ↔ o = some '\x00' := by
  cases o <;> simp [foldChar_eq_iff (d := '\x00') rfl]

theorem encodeLine_variant {T T' : String} (h : T.toList.map foldChar = T'.toList.map foldChar) :
    (encodeLine T).mapError SourceError.errorClass =
      (encodeLine T').mapError SourceError.errorClass := by
  have hb := Statement.breakLine_map_foldChar T.toList
  rw [h, Statement.breakLine_map_foldChar] at hb
  unfold encodeLine
  generalize Statement.breakLine T.toList = b at hb ⊢
  generalize Statement.breakLine T'.toList = b' at hb ⊢
  obtain ⟨line, found, after⟩ := b
  obtain ⟨line', found', after'⟩ := b'
  simp only [Prod.mk.injEq] at hb
  obtain ⟨hline, rfl, hafter⟩ := hb
  -- the terminator test and the test for text after the line read folded characters alike
  have hnul : (T.toList.drop line.length).head? = some '\x00' ↔
      (T'.toList.drop line'.length).head? = some '\x00' := by
    have hlen : line.length = line'.length := by simpa using (congrArg List.length hline).symm
    rw [hlen, ← map_foldChar_eq_nul, ← List.head?_map, List.map_drop, h, ← List.map_drop,
      List.head?_map, map_foldChar_eq_nul]
  have hrest : (trimChars after).isEmpty = (trimChars after').isEmpty := by
    rw [← List.isEmpty_map (f := foldChar), ← trimChars_map_foldChar, ← hafter,
      trimChars_map_foldChar, List.isEmpty_map]
  have hp := Statement.parse_map_foldChar line
  rw [← hline, Statement.parse_map_foldChar] at hp
  simp only [hrest, hnul]
  cases h1 : Statement.parse line <;> cases h2 : Statement.parse line' <;>
    simp only [h1, h2, Except.map, Except.mapError, Except.error.injEq, Except.ok.injEq,
      reduceCtorEq] at hp
  · simp only [Except.mapError, hp]
  · rename_i st st'
    dsimp only
    split
    · rfl
    · -- the statements differ in their operand texts only
      obtain ⟨lab, act⟩ := st
      obtain ⟨lab', act'⟩ := st'
      simp only [Statement.foldCase, Statement.mk.injEq] at hp
      obtain ⟨hlab, hact⟩ := hp
      subst hlab
      cases lab' with
      | some l => rfl
      | none =>
        cases act <;> cases act' <;>
          simp only [Action.foldCase, reduceCtorEq, Action.instruction.injEq] at hact
        · rfl
        · rfl
        · obtain ⟨rfl, hops⟩ := hact
          exact (encodeIn_variant _ {} hops).symm

theorem Except.mapError_eq_mapError_iff {ε ε' α : Type} {f : ε → ε'} {x y : Except ε α} :
    x.mapError f = y.mapError f ↔
      (∃ a, x = .ok a ∧ y = .ok a) ∨ ∃ e e', x = .error e ∧ y = .error e' ∧ f e = f e' := by
  cases x <;> cases y <;> simp [Except.mapError]
  exact eq_comm

/-- **Letter case does not matter.** Two sources that differ only in the case of ASCII letters
outside db strings bind the same labels, and either both assemble to the same bytes or both
stop at the same line with the same class of error. A single line assembles the same way
whatever the case of its letters. -/
theorem assembly_ignores_letter_case {src src' : String} (h : CaseVariant src src')
    (base : UInt32) :
    (assemble src base).labels = (assemble src' base).labels ∧
      ((∃ bytes, (assemble src base).result = .ok bytes ∧
          (assemble src' base).result = .ok bytes) ∨
        ∃ e e', (assemble src base).result = .error (.line e) ∧
          (assemble src' base).result = .error (.line e') ∧
          e.line = e'.line ∧ e.err.errorClass = e'.err.errorClass) ∧
      ∀ T T' : String, T.toList.map foldChar = T'.toList.map foldChar →
        (∃ bytes, encodeLine T = .ok bytes ∧ encodeLine T' = .ok bytes) ∨
          ∃ e e', encodeLine T = .error e ∧ encodeLine T' = .error e' ∧
            e.errorClass = e'.errorClass := by
  obtain ⟨hl, hr⟩ := assemble_variant h base
  refine ⟨hl, ?_, fun T T' hT => Except.mapError_eq_mapError_iff.1 (encodeLine_variant hT)⟩
  rcases Except.mapError_eq_mapError_iff.1 hr with ⟨b, h1, h2⟩ | ⟨e, e', h1, h2, hs⟩
  · exact .inl ⟨b, h1, h2⟩
  · -- a line error and a size change never share a site, and no size changes
    right
    cases e with
    | sizeChanged n => exact absurd h1 (assemble_ne_sizeChanged src base n)
    | line e =>
      cases e' with
      | sizeChanged n => exact absurd h2 (assemble_ne_sizeChanged src' base n)
      | line e' =>
        simp only [AssemblyFailure.site, Prod.mk.injEq, Option.some.injEq] at hs
        exact ⟨_, _, h1, h2, hs.1, hs.2⟩

theorem mixed_case_program_assembles_alike :
    CaseVariant "Loop: MOV R1, #0FFH\n    DB 'Hi', 0AH\n" "loop: mov r1, #0ffh\n    db 'Hi', 0ah\n" ∧
      (assemble "Loop: MOV R1, #0FFH\n    DB 'Hi', 0AH\n" 0).labels =
        (assemble "loop: mov r1, #0ffh\n    db 'Hi', 0ah\n" 0).labels := by
  have hv : CaseVariant "Loop: MOV R1, #0FFH\n    DB 'Hi', 0AH\n"
      "loop: mov r1, #0ffh\n    db 'Hi', 0ah\n" := ⟨by decide +kernel, by decide +kernel⟩
  exact ⟨hv, (assembly_ignores_letter_case hv 0).1⟩

end C166Codec
