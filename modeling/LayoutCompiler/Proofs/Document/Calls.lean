import LayoutCompiler.Proofs.Document.Nesting
import LayoutCompiler.Proofs.Document.Recording
import Mathlib.Data.List.Induction

/-
Writers after any calls, in any order and whatever came of them. A call that ends
something is refused if that was not opened last, and the innermost opening is then
forgotten without being ended (`call_of_refused`). So the operations of a document are
well nested if and only if nothing was open whenever a call was refused: careful calls
keep the operations nested up to what is open, and an opening that was forgotten is
missed by a count of openings and endings ever after.
-/

namespace LayoutCompiler.Document

/-! ### Calls -/

/-- What can be asked of a writer. -/
inductive Call where
  | begin (o : Options)
  | addText (text : String)
  | startRoot
  | startColumn (modifiers : List Modifier) (horizontal : Alignment) (vertical : Arrangement)
  | startRow (modifiers : List Modifier) (horizontal : Arrangement) (vertical : Alignment)
  | startBox (modifiers : List Modifier) (horizontal vertical : Alignment)
  | textRun (run : TextRun)
  | endRoot
  | endContainer

namespace Writer

/-- What comes of a call, with the number if one is given, and the writer after it. -/
def call (w : Writer) : Call → Except WriteError (Option TextId) × Writer
  | .begin o => (.ok none, w.begin o)
  | .addText text => (.ok (some (w.addText text).1), (w.addText text).2)
  | .startRoot => (.ok none, w.startRoot)
  | .startColumn modifiers horizontal vertical =>
    (.ok none, w.startColumn modifiers horizontal vertical)
  | .startRow modifiers horizontal vertical => (.ok none, w.startRow modifiers horizontal vertical)
  | .startBox modifiers horizontal vertical => (.ok none, w.startBox modifiers horizontal vertical)
  | .textRun run => (.ok none, w.textRun run)
  | .endRoot => (w.endRoot.1.map fun _ => none, w.endRoot.2)
  | .endContainer => (w.endContainer.1.map fun _ => none, w.endContainer.2)

/-- A writer after calls, whatever came of them. -/
def after (w : Writer) (calls : List Call) : Writer :=
  calls.foldl (fun w c => (w.call c).2) w

/-- A call is refused because it ends what was not opened last. -/
def Refuses (w : Writer) (c : Call) : Prop :=
  (w.call c).1 = .error .unbalanced

/-- What a call can come to. -/
inductive Outcome (w : Writer) : Except WriteError (Option TextId) × Writer → Prop where
  | began (o : Options) : Outcome w (.ok none, w.begin o)
  | named (s : String) :
      Outcome w (.ok (some (numberIn (withText w.texts s) s)),
        { w with table := w.table.addAll [s] })
  | drew (run : TextRun) : Outcome w (.ok none, w.textRun run)
  | started {kind : Open} {op : Operation} : op.opened? = some kind →
      Outcome w (.ok none, w.start kind op)
  | finished {kind : Open} {rest : List Open} : w.opened = kind :: rest →
      Outcome w (.ok none, { w with recorded := kind.ending :: w.recorded, opened := rest })
  | refused : Outcome w (.error .unbalanced, { w with opened := w.opened.tail })

theorem outcome_close (w : Writer) (kind : Open) :
    Outcome w ((w.close kind kind.ending).1.map fun _ => none, (w.close kind kind.ending).2) := by
  unfold close
  cases hopened : w.opened with
  | nil =>
    -- With nothing open there is no opening to forget.
    have hsame : { w with opened := w.opened.tail } = w := by rw [hopened, List.tail_nil, ← hopened]
    have hrefused := Outcome.refused (w := w)
    rwa [hsame] at hrefused
  | cons last rest =>
    by_cases hlast : last = kind
    · simp only [hlast, if_pos]
      exact .finished (hlast ▸ hopened)
    · simp only [if_neg hlast]
      have hrefused := Outcome.refused (w := w)
      rwa [hopened] at hrefused

/-- What calls come to. -/
theorem outcome_call (w : Writer) (c : Call) : Outcome w (w.call c) := by
  cases c with
  | begin o => exact .began o
  | addText text =>
    rw [call, addText_eq]
    exact .named text
  | startRoot => exact .started rfl
  | startColumn modifiers horizontal vertical => exact .started rfl
  | startRow modifiers horizontal vertical => exact .started rfl
  | startBox modifiers horizontal vertical => exact .started rfl
  | textRun run => exact .drew run
  | endRoot => exact outcome_close w .root
  | endContainer => exact outcome_close w .container

/-- A refused call forgets the innermost opening and does nothing else. -/
theorem call_of_refused {w : Writer} {c : Call} (h : w.Refuses c) :
    (w.call c).2 = { w with opened := w.opened.tail } := by
  have hcall := outcome_call w c
  unfold Refuses at h
  generalize w.call c = result at h hcall
  cases hcall with
  | refused => rfl
  | began | named | drew | started | finished => cases h

theorem call_eq_self_iff_of_refused {w : Writer} {c : Call} (h : w.Refuses c) :
    (w.call c).2 = w ↔ w.opened = [] := by
  rw [call_of_refused h]
  constructor
  · intro hsame
    have htail : w.opened.tail = w.opened := congrArg Writer.opened hsame
    cases hopened : w.opened with
    | nil => rfl
    | cons last rest => simp [hopened] at htail
  · intro hopened
    rw [hopened, List.tail_nil, ← hopened]

theorem after_append (w : Writer) (calls calls' : List Call) :
    w.after (calls ++ calls') = (w.after calls).after calls' :=
  List.foldl_append

theorem after_concat (w : Writer) (calls : List Call) (c : Call) :
    w.after (calls ++ [c]) = ((w.after calls).call c).2 :=
  after_append w calls [c]

/-- No text is given two numbers. -/
theorem nodup_texts_after (calls : List Call) : (empty.after calls).texts.Nodup := by
  induction calls using List.reverseRecOn with
  | nil => exact List.nodup_nil
  | append_singleton calls c ih =>
    have hcall := outcome_call (empty.after calls) c
    rw [after_concat]
    generalize (empty.after calls).call c = result at hcall ⊢
    cases hcall with
    | named s =>
      rw [texts, TextTable.texts_addAll]
      exact nodup_withText ih s
    | began | drew | started | finished | refused => exact ih

end Writer

/-! ### Calls that forget nothing -/

open Writer (empty)

/-- Whenever one of these calls is refused, nothing is open. -/
def Careful (calls : List Call) : Prop :=
  ∀ before c, before ++ [c] <+: calls → (empty.after before).Refuses c →
    (empty.after before).opened = []

theorem careful_concat {calls : List Call} {c : Call} :
    Careful (calls ++ [c]) ↔
      Careful calls ∧ ((empty.after calls).Refuses c → (empty.after calls).opened = []) := by
  constructor
  · intro h
    refine ⟨fun before c' hcalls => ?_, h calls c List.prefix_rfl⟩
    exact h before c' (hcalls.trans (List.prefix_append calls [c]))
  · rintro ⟨hbefore, hlast⟩ before c' hcalls
    rcases List.prefix_concat_iff.mp hcalls with heq | hcalls
    · obtain ⟨rfl, hc⟩ := List.append_inj' heq rfl
      obtain rfl := List.singleton_inj.mp hc
      exact hlast
    · exact hbefore before c' hcalls

/-- A call that forgets nothing keeps the operations nested up to what is open. -/
theorem Unfinished.call {w : Writer} {c : Call} (h : Unfinished w.opened w.operations)
    (hcareful : w.Refuses c → w.opened = []) :
    Unfinished (w.call c).2.opened (w.call c).2.operations := by
  have hcall := Writer.outcome_call w c
  unfold Writer.Refuses at hcareful
  generalize w.call c = result at hcareful hcall ⊢
  cases hcall with
  | began | named => exact h
  | drew run =>
    rw [Writer.textRun, Writer.push, Writer.operations, List.reverse_cons]
    exact h.append (.text run .nil)
  | started hop =>
    rw [Writer.start, Writer.operations, List.reverse_cons]
    exact h.start hop
  | finished hopened =>
    rw [hopened] at h
    rw [Writer.operations, List.reverse_cons]
    exact h.finish
  | refused =>
    -- An opening that is forgotten would stay in the operations without its end.
    have hopened := hcareful rfl
    rw [hopened] at h
    rw [hopened]
    exact h

theorem unfinished_after {calls : List Call} (h : Careful calls) :
    Unfinished (empty.after calls).opened (empty.after calls).operations := by
  induction calls using List.reverseRecOn with
  | nil => exact .nested .nil
  | append_singleton calls c ih =>
    obtain ⟨hbefore, hlast⟩ := careful_concat.mp h
    rw [Writer.after_concat]
    exact (ih hbefore).call hlast

/-! ### Openings that are forgotten -/

namespace Writer

/-- How many openings are neither ended nor open. -/
def forgotten (w : Writer) : Int :=
  openings w.operations - endings w.operations - w.opened.length

/-- What is forgotten stays forgotten. -/
theorem forgotten_le_call (w : Writer) (c : Call) : w.forgotten ≤ (w.call c).2.forgotten := by
  have hcall := outcome_call w c
  generalize w.call c = result at hcall ⊢
  unfold forgotten
  cases hcall with
  | began | named => exact Int.le_refl _
  | drew run =>
    simp [textRun, push, operations, openings_concat, endings_concat, Operation.opened?,
      Operation.ended?]
  | started hop =>
    simp only [start, operations, List.reverse_cons, openings_concat, endings_concat, hop,
      Operation.ended?_of_opened? hop, Option.isSome_some, Option.isSome_none, ↓reduceIte,
      Bool.false_eq_true, List.length_cons]
    omega
  | @finished kind rest hopened =>
    simp only [operations, List.reverse_cons, openings_concat, endings_concat, hopened,
      kind.opened?_ending, kind.ended?_ending, Option.isSome_some, Option.isSome_none, ↓reduceIte,
      Bool.false_eq_true, List.length_cons]
    omega
  | refused =>
    have hlength := w.opened.length_tail
    change _ ≤ (openings w.operations - endings w.operations - w.opened.tail.length : Int)
    omega

theorem forgotten_lt_call {w : Writer} {c : Call} (h : w.Refuses c) (hopened : w.opened ≠ []) :
    w.forgotten < (w.call c).2.forgotten := by
  have hpos := List.length_pos_iff.mpr hopened
  have hlength := w.opened.length_tail
  rw [call_of_refused h]
  change _ < (openings w.operations - endings w.operations - w.opened.tail.length : Int)
  rw [forgotten]
  omega

theorem forgotten_le_after (w : Writer) (calls : List Call) :
    w.forgotten ≤ (w.after calls).forgotten := by
  induction calls generalizing w with
  | nil => exact Int.le_refl _
  | cons c calls ih => exact Int.le_trans (forgotten_le_call w c) (ih _)

end Writer

theorem careful_of_wellNested {calls : List Call} (hopened : (empty.after calls).opened = [])
    (h : WellNested (empty.after calls).operations) : Careful calls := by
  rintro before c ⟨rest, rfl⟩ hrefuses
  by_contra hopen
  -- What the refusal forgets is still missing at the end, where nothing can be.
  have hnothing : (empty.after (before ++ [c] ++ rest)).forgotten = 0 := by
    rw [Writer.forgotten, h.openings_eq, hopened]
    simp
  have hsomething : 0 < (empty.after (before ++ [c] ++ rest)).forgotten :=
    calc 0 = empty.forgotten := rfl
      _ ≤ (empty.after before).forgotten := Writer.forgotten_le_after _ before
      _ < (empty.after (before ++ [c])).forgotten := by
        rw [Writer.after_concat]
        exact Writer.forgotten_lt_call hrefuses hopen
      _ ≤ (empty.after (before ++ [c] ++ rest)).forgotten := by
        rw [Writer.after_append _ (before ++ [c])]
        exact Writer.forgotten_le_after _ rest
  omega

theorem Writer.document_eq_ok_iff {w : Writer} {d : Document} :
    w.document = .ok d ↔
      w.opened = [] ∧ ⟨w.header.getD ({} : Options).header, w.texts, w.operations⟩ = d := by
  unfold document
  cases w.opened <;> simp

/-- **Refused calls and nesting.** A refused call forgets the innermost opening, so it leaves the
writer as it was only if nothing is open; and a document is well nested if and only if none of the
calls has forgotten an opening in this way. -/
theorem refused_and_wellNested (calls : List Call) :
    (∀ c, (empty.after calls).Refuses c →
      ((empty.after calls).call c).2 =
          { empty.after calls with opened := (empty.after calls).opened.tail } ∧
        (((empty.after calls).call c).2 = empty.after calls ↔ (empty.after calls).opened = [])) ∧
    ∀ d, (empty.after calls).document = .ok d → (WellNested d.operations ↔ Careful calls) := by
  refine ⟨fun c h => ⟨Writer.call_of_refused h, Writer.call_eq_self_iff_of_refused h⟩, ?_⟩
  intro d h
  obtain ⟨hopened, rfl⟩ := Writer.document_eq_ok_iff.mp h
  refine ⟨careful_of_wellNested hopened, fun hcareful => ?_⟩
  have hunfinished := unfinished_after hcareful
  rw [hopened] at hunfinished
  exact hunfinished.wellNested

/-- A root that is ended as if it were a container: this is refused, and then the document is
complete, although the root was never ended. Without the refused call it could not be finished. -/
theorem refused_endContainer_forgets_root :
    (empty.after [.startRoot]).Refuses .endContainer ∧
      (empty.after [.startRoot]).document = .error (.unclosed 1) ∧
      ∃ d, (empty.after [.startRoot, .endContainer]).document = .ok d ∧
        d.operations = [.rootStart] ∧ ¬ WellNested d.operations := by
  refine ⟨rfl, rfl, _, rfl, rfl, fun h => ?_⟩
  have hcount : openings [.rootStart] = endings [.rootStart] := h.openings_eq
  exact absurd hcount (by decide)

end LayoutCompiler.Document
