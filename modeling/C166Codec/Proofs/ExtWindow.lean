import C166Codec.Listing.Window
import C166Codec.Source.Program
/-!
# The two ext windows agree

A listing follows the ext window with a `ListingWindow`, stepped after every printed
instruction and reset at every stretch of data. An assembly follows it with a
`SourceWindow` over the items of its program, the way both of its passes do: stepped after
every instruction with the instruction's operands, a prefix's count read from its last
operand, closed at every directive, and left alone at a label.

A listing's events are written as program items (`WindowEvent.WrittenAs`): an instruction as
an instruction whose last operand is the range it opens as a prefix, a stretch of data as one
or more directives, with labels anywhere. The main statement, `listingTrace_eq_sourceTrace`,
says that outside a listing-wide extended window the two machines then report the same state
before every instruction. So a printed instruction is read back in the window it was printed
in.
-/

namespace C166Codec

/-- An event that moves a listing's ext window: an instruction with its mnemonic and the range
it would open as a prefix, or a stretch of data. -/
inductive WindowEvent where
  | instruction (mnemonic : String) (range : Nat)
  | data

/-- Whether a listing's window is active before each instruction of the events. -/
def ListingWindow.trace : ListingWindow → List WindowEvent → List Bool
  | _, [] => []
  | w, .instruction mn r :: evs => w.active :: ListingWindow.trace (w.advance mn r) evs
  | w, .data :: evs => ListingWindow.trace w.reset evs

/-- Whether an assembly's window is active before each instruction of a program's items: a
label leaves the window alone, a directive closes it, and an instruction steps it with its
operands. -/
def SourceWindow.trace : SourceWindow → List Item → List Bool
  | _, [] => []
  | w, .label _ :: items => SourceWindow.trace w items
  | w, .directive .. :: items => SourceWindow.trace w.close items
  | w, .instruction mn ops :: items => w.active :: SourceWindow.trace (w.step mn ops) items

/-- How the events of a listing are written as the items of a program: an instruction as an
instruction of that mnemonic whose last operand is its range when it opens a window, a stretch
of data as one or more directives, and labels anywhere. -/
inductive WindowEvent.WrittenAs : List WindowEvent → List Item → Prop
  | nil : WrittenAs [] []
  | label {evs : List WindowEvent} {items : List Item} (l : String) :
      WrittenAs evs items → WrittenAs evs (.label l :: items)
  | instruction {evs : List WindowEvent} {items : List Item} {mn : String} {r : Nat}
      {ops : List Operand}
      (hr : SourceWindow.opens mn = true → ops.getLast?.map Operand.value = some (r : Int)) :
      WrittenAs evs items → WrittenAs (.instruction mn r :: evs) (.instruction mn ops :: items)
  | data {evs : List WindowEvent} {items : List Item} (d : Directive) (args : List String) :
      WrittenAs evs items → WrittenAs (.data :: evs) (.directive d args :: items)
  | directive {evs : List WindowEvent} {items : List Item} (d : Directive) (args : List String) :
      WrittenAs (.data :: evs) items → WrittenAs (.data :: evs) (.directive d args :: items)

/-- One instruction moves both windows alike: they report the same state before it, and
after it the listing's window is still not listing-wide and the two counts agree. -/
theorem ListingWindow.step_agrees {w : ListingWindow} {s : SourceWindow} (hb : w.base = false)
    (hr : s.remaining = w.remaining) {mn : String} {r : Nat} {ops : List Operand}
    (hops : SourceWindow.opens mn = true → ops.getLast?.map Operand.value = some (r : Int)) :
    s.active = w.active ∧ (w.advance mn r).base = false ∧
      (s.step mn ops).remaining = (w.advance mn r).remaining := by
  have hopens : SourceWindow.opens mn = ListingWindow.opens mn := rfl
  refine ⟨?_, ?_, ?_⟩
  · simp only [ListingWindow.active, SourceWindow.active, hb, hr, Bool.false_or]
    by_cases h : w.remaining > 0 <;> simp [h]
  · unfold ListingWindow.advance
    cases ListingWindow.opens mn <;> simp [hb]
  · unfold SourceWindow.step ListingWindow.advance SourceWindow.advance
    cases ho : ListingWindow.opens mn
    · -- any other instruction uses up one instruction of an open window
      rw [hopens, ho]
      by_cases h : s.remaining > 0
      · simp only [if_pos h, Bool.false_eq_true, if_false]
        omega
      · simp only [if_neg h, Bool.false_eq_true, if_false]
        omega
    · -- a prefix opens a window of its last operand's value, which is its range
      rw [hopens, ho, hops (hopens ▸ ho)]
      simp

/-- Two windows with the same count and no listing-wide window stay in step over events and
the items they are written as. -/
theorem ListingWindow.trace_eq_of_writtenAs {evs : List WindowEvent} {items : List Item}
    (h : WindowEvent.WrittenAs evs items) :
    ∀ (w : ListingWindow) (s : SourceWindow), w.base = false → s.remaining = w.remaining →
      ListingWindow.trace w evs = SourceWindow.trace s items := by
  induction h with
  | nil => intro w s _ _; rfl
  | label l _ ih => exact ih
  | instruction hops _ ih =>
    intro w s hb hr
    obtain ⟨hact, hb', hr'⟩ := step_agrees hb hr hops
    simp only [ListingWindow.trace, SourceWindow.trace, hact, List.cons.injEq, true_and]
    exact ih _ _ hb' hr'
  | data d args _ ih =>
    intro w s hb _
    exact ih w.reset s.close hb rfl
  | directive d args _ ih =>
    -- a further directive of one stretch of data: the window is closed already
    intro w s hb _
    exact ih w.reset s.close hb rfl

/-- **A listing and the assembly of its text follow the ext window alike.** For any events of
a listing outside the listing-wide extended window, and any items of a program they are
written as, the two windows, both starting closed, report the same state before every
instruction. -/
theorem listingTrace_eq_sourceTrace {evs : List WindowEvent} {items : List Item}
    (h : WindowEvent.WrittenAs evs items) :
    ListingWindow.trace ⟨false, 0⟩ evs = SourceWindow.trace {} items :=
  ListingWindow.trace_eq_of_writtenAs h ⟨false, 0⟩ {} rfl rfl

/-- `extr #1` opens a window for one instruction, written with a label before that instruction
and its data as two `db` lines: both windows report closed, open, closed. -/
theorem extr_window_traced_alike :
    WindowEvent.WrittenAs
        [.instruction "extr" 1, .instruction "mov" 0, .data, .instruction "nop" 0]
        [.instruction "extr" [⟨.immediate 1 false, "#1"⟩], .label "x",
          .instruction "mov" [⟨.register (.word 0), "r0"⟩, ⟨.register (.word 1), "r1"⟩],
          .directive .db ["1"], .directive .db ["2"], .instruction "nop" []] ∧
      ListingWindow.trace ⟨false, 0⟩
          [.instruction "extr" 1, .instruction "mov" 0, .data, .instruction "nop" 0] =
        SourceWindow.trace {}
          [.instruction "extr" [⟨.immediate 1 false, "#1"⟩], .label "x",
            .instruction "mov" [⟨.register (.word 0), "r0"⟩, ⟨.register (.word 1), "r1"⟩],
            .directive .db ["1"], .directive .db ["2"], .instruction "nop" []] := by
  have hw : WindowEvent.WrittenAs
      [.instruction "extr" 1, .instruction "mov" 0, .data, .instruction "nop" 0]
      [.instruction "extr" [⟨.immediate 1 false, "#1"⟩], .label "x",
        .instruction "mov" [⟨.register (.word 0), "r0"⟩, ⟨.register (.word 1), "r1"⟩],
        .directive .db ["1"], .directive .db ["2"], .instruction "nop" []] :=
    .instruction (fun _ => rfl) <| .label "x" <| .instruction (by decide) <|
      .directive .db ["1"] <| .data .db ["2"] <| .instruction (by decide) .nil
  exact ⟨hw, listingTrace_eq_sourceTrace hw⟩

end C166Codec
