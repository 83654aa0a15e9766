import LayoutCompiler.Proofs.Document.Calls

/-
What writers have open while none of their calls is refused. An operation that opens
something is matched if, after well-nested operations, the operation follows that ends
it (`Open.EndedIn`); the others are `unmatched`. These are all read off the recorded
operations, and as long as no call is refused they are exactly what the writer has open
(`Unfinished.unmatched_eq`): the last of them tells which call can end something, and
their number is that of an unfinished document.
-/

namespace LayoutCompiler.Document

/-! ### Deciding whether operations are well nested -/

/-- Whether operations end what is open, innermost first, and are well nested apart from that. -/
def closes : (stack : List Open) → List Operation → Bool
  | stack, [] => stack.isEmpty
  | stack, op :: ops =>
    match op.opened?, op.ended?, stack with
    | some kind, _, _ => closes (kind :: stack) ops
    | none, some kind, last :: rest => last = kind && closes rest ops
    | none, some _, [] => false
    | none, none, _ => closes stack ops

theorem closes_opening {op : Operation} {kind : Open} (h : op.opened? = some kind)
    (stack : List Open) (ops : List Operation) :
    closes stack (op :: ops) = closes (kind :: stack) ops := by
  simp only [closes, h]

theorem closes_ending (kind : Open) (stack : List Open) (ops : List Operation) :
    closes (kind :: stack) (kind.ending :: ops) = closes stack ops := by
  simp only [closes, kind.opened?_ending, kind.ended?_ending, decide_true, Bool.true_and]

/-- Well-nested operations end nothing that was open before. -/
theorem WellNested.closes_append {inner : List Operation} (h : WellNested inner)
    (stack : List Open) (ops : List Operation) :
    closes stack (inner ++ ops) = closes stack ops := by
  induction h generalizing stack ops with
  | nil => rfl
  | text run _ ih => exact ih stack ops
  | block hstart _ _ ihinner ih =>
    rw [List.cons_append, List.append_assoc, List.cons_append, closes_opening hstart, ihinner,
      closes_ending, ih]

/-- Operations that end what is open finish what has been begun. -/
theorem Unfinished.wellNested_append {stack : List Open} {before ops : List Operation}
    (h : Unfinished stack before) (hcloses : closes stack ops) : WellNested (before ++ ops) := by
  induction ops generalizing stack before with
  | nil =>
    obtain rfl := List.isEmpty_iff.mp hcloses
    rw [List.append_nil]
    exact h.wellNested
  | cons op ops ih =>
    rw [List.append_cons]
    cases hopened : op.opened? with
    | some kind =>
      rw [closes_opening hopened] at hcloses
      exact ih (h.start hopened) hcloses
    | none =>
      cases op with
      | rootStart | columnStart | rowStart | boxStart => cases hopened
      | text run => exact ih (h.append (.text run .nil)) hcloses
      | rootEnd | containerEnd =>
        cases stack with
        | nil => cases hcloses
        | cons last rest =>
          obtain ⟨hlast, hcloses⟩ := Bool.and_eq_true_iff.mp hcloses
          obtain rfl := of_decide_eq_true hlast
          exact ih h.finish hcloses

theorem wellNested_iff_closes {ops : List Operation} : WellNested ops ↔ closes [] ops := by
  constructor
  · intro h
    have hcloses := h.closes_append [] []
    rwa [List.append_nil] at hcloses
  · exact Unfinished.wellNested_append (.nested .nil)

instance (ops : List Operation) : Decidable (WellNested ops) :=
  decidable_of_iff _ wellNested_iff_closes.symm

/-! ### Openings and endings, counted -/

theorem openings_append (ops ops' : List Operation) :
    openings (ops ++ ops') = openings ops + openings ops' :=
  List.countP_append

theorem endings_append (ops ops' : List Operation) :
    endings (ops ++ ops') = endings ops + endings ops' :=
  List.countP_append

theorem openings_cons_of_opened? {op : Operation} {kind : Open} (h : op.opened? = some kind)
    (ops : List Operation) : openings (op :: ops) = openings ops + 1 := by
  rw [openings, List.countP_cons, h]
  rfl

theorem endings_cons_of_opened? {op : Operation} {kind : Open} (h : op.opened? = some kind)
    (ops : List Operation) : endings (op :: ops) = endings ops := by
  rw [endings, List.countP_cons, Operation.ended?_of_opened? h]
  rfl

theorem openings_cons_ending (kind : Open) (ops : List Operation) :
    openings (kind.ending :: ops) = openings ops := by
  rw [openings, List.countP_cons, kind.opened?_ending]
  rfl

theorem endings_cons_ending (kind : Open) (ops : List Operation) :
    endings (kind.ending :: ops) = endings ops + 1 := by
  rw [endings, List.countP_cons, kind.ended?_ending]
  rfl

/-- Nothing is ended before it is opened. -/
theorem WellNested.endings_le_openings {ops front back : List Operation} (h : WellNested ops)
    (hops : front ++ back = ops) : endings front ≤ openings front := by
  induction h generalizing front back with
  | nil =>
    obtain ⟨rfl, -⟩ := List.append_eq_nil_iff.mp hops
    exact Nat.le_refl _
  | text run _ ih =>
    rcases List.append_eq_cons_iff.mp hops with ⟨rfl, -⟩ | ⟨front', rfl, hback⟩
    · exact Nat.le_refl _
    · simpa [openings, endings, Operation.opened?, Operation.ended?] using ih hback.symm
  | @block start kind inner ops hstart hinner _ ihinner ih =>
    rcases List.append_eq_cons_iff.mp hops with ⟨rfl, -⟩ | ⟨front', rfl, hback⟩
    · exact Nat.le_refl _
    · rw [openings_cons_of_opened? hstart, endings_cons_of_opened? hstart]
      rcases List.append_eq_append_iff.mp hback with ⟨rest, rfl, hrest⟩ | ⟨rest, hrest, -⟩
      · -- The front reaches up to the end of the block, or beyond it.
        rw [openings_append, endings_append, hinner.openings_eq]
        rcases List.append_eq_cons_iff.mp hrest.symm with ⟨rfl, -⟩ | ⟨rest', rfl, hrest'⟩
        · simp only [openings, endings, List.countP_nil]
          omega
        · have hle := ih hrest'.symm
          rw [openings_cons_ending, endings_cons_ending]
          omega
      · have hle := ihinner hrest.symm
        omega

/-- At an ending something is still to be ended. -/
theorem WellNested.endings_lt_openings {front back : List Operation} {kind : Open}
    (h : WellNested (front ++ kind.ending :: back)) : endings front < openings front := by
  have hle := h.endings_le_openings (List.append_cons front kind.ending back).symm
  rw [openings_concat, endings_concat, kind.opened?_ending, kind.ended?_ending] at hle
  exact hle

/-! ### Unmatched openings -/

/-- What is open is ended in the operations that follow: by the operation for its kind, with only
well-nested operations before it. -/
def Open.EndedIn (kind : Open) (ops : List Operation) : Prop :=
  ∃ inner rest, WellNested inner ∧ ops = inner ++ kind.ending :: rest

theorem Open.endedIn_iff {kind : Open} {ops : List Operation} :
    kind.EndedIn ops ↔ ∃ i < ops.length, ops[i]? = some kind.ending ∧ WellNested (ops.take i) := by
  constructor
  · rintro ⟨inner, rest, hinner, rfl⟩
    refine ⟨inner.length, by simp, by simp, ?_⟩
    rwa [List.take_left]
  · rintro ⟨i, hi, hending, hinner⟩
    refine ⟨ops.take i, ops.drop (i + 1), hinner, ?_⟩
    rw [List.getElem?_eq_getElem hi, Option.some.injEq] at hending
    rw [← hending, List.getElem_cons_drop, List.take_append_drop]

instance (kind : Open) (ops : List Operation) : Decidable (kind.EndedIn ops) :=
  decidable_of_iff _ Open.endedIn_iff.symm

/-- The operations that open something which is not ended after them, in order. -/
def unmatched : List Operation → List Operation
  | [] => []
  | op :: ops =>
    match op.opened? with
    | none => unmatched ops
    | some kind => if kind.EndedIn ops then unmatched ops else op :: unmatched ops

theorem unmatched_cons_of_endedIn {op : Operation} {kind : Open} {ops : List Operation}
    (hop : op.opened? = some kind) (h : kind.EndedIn ops) :
    unmatched (op :: ops) = unmatched ops := by
  simp only [unmatched, hop, if_pos h]

theorem unmatched_cons_of_not_endedIn {op : Operation} {kind : Open} {ops : List Operation}
    (hop : op.opened? = some kind) (h : ¬ kind.EndedIn ops) :
    unmatched (op :: ops) = op :: unmatched ops := by
  simp only [unmatched, hop, if_neg h]

theorem unmatched_cons_of_opened?_eq_none {op : Operation} (hop : op.opened? = none)
    (ops : List Operation) : unmatched (op :: ops) = unmatched ops := by
  simp only [unmatched, hop]

/-- In well-nested operations every opening is matched. -/
theorem unmatched_append_of_wellNested {inner : List Operation} (h : WellNested inner)
    (ops : List Operation) : unmatched (inner ++ ops) = unmatched ops := by
  induction h generalizing ops with
  | nil => rfl
  | text run _ ih => exact ih ops
  | @block start kind inner rest hstart hinner _ ihinner ih =>
    rw [List.cons_append, List.append_assoc, List.cons_append,
      unmatched_cons_of_endedIn hstart ⟨inner, rest ++ ops, hinner, rfl⟩, ihinner,
      unmatched_cons_of_opened?_eq_none kind.opened?_ending, ih]

theorem WellNested.unmatched_eq_nil {ops : List Operation} (h : WellNested ops) :
    unmatched ops = [] := by
  have happend := unmatched_append_of_wellNested h []
  rwa [List.append_nil] at happend

theorem WellNested.not_endedIn {inner : List Operation} (h : WellNested inner) (kind : Open) :
    ¬ kind.EndedIn inner := by
  rintro ⟨before, after, hbefore, rfl⟩
  exact absurd hbefore.openings_eq (Nat.ne_of_gt h.endings_lt_openings)

section Start

variable {start : Operation} {last : Open} {inner : List Operation}
  (hstart : start.opened? = some last) (hinner : WellNested inner)

include hstart hinner

/-- What ends after an unmatched opening must be that opening first. -/
theorem endedIn_append_start {kind : Open} {ops : List Operation} :
    kind.EndedIn (ops ++ start :: inner) ↔ kind.EndedIn ops := by
  have hne (kind : Open) : start ≠ kind.ending := by
    rintro rfl
    rw [kind.opened?_ending] at hstart
    cases hstart
  constructor
  · rintro ⟨before, after, hbefore, heq⟩
    rcases List.append_eq_append_iff.mp heq with ⟨more, rfl, hmore⟩ | ⟨more, rfl, hmore⟩
    · -- Then the opening would be among operations that are well nested without its end.
      rcases List.cons_eq_append_iff.mp hmore with ⟨rfl, hend⟩ | ⟨more', rfl, rfl⟩
      · exact absurd (List.cons.inj hend).1.symm (hne kind)
      · have hops := hbefore.endings_le_openings rfl
        have hmore' := hinner.endings_lt_openings
        have hequal := hbefore.openings_eq
        rw [openings_append, endings_append, openings_cons_of_opened? hstart,
          endings_cons_of_opened? hstart] at hequal
        omega
    · rcases List.cons_eq_append_iff.mp hmore with ⟨rfl, hend⟩ | ⟨more', rfl, -⟩
      · exact absurd (List.cons.inj hend).1 (hne kind)
      · exact ⟨before, more', hbefore, rfl⟩
  · rintro ⟨before, after, hbefore, rfl⟩
    exact ⟨before, after ++ start :: inner, hbefore, by simp⟩

/-- An opening with only well-nested operations after it is unmatched, and so is what was unmatched
before it. -/
theorem unmatched_append_start (ops : List Operation) :
    unmatched (ops ++ start :: inner) = unmatched ops ++ [start] := by
  induction ops with
  | nil =>
    rw [List.nil_append, unmatched_cons_of_not_endedIn hstart (hinner.not_endedIn last),
      hinner.unmatched_eq_nil]
    rfl
  | cons op ops ih =>
    rw [List.cons_append]
    cases hop : op.opened? with
    | none =>
      rw [unmatched_cons_of_opened?_eq_none hop, unmatched_cons_of_opened?_eq_none hop, ih]
    | some kind =>
      by_cases hended : kind.EndedIn ops
      · have hended' := (endedIn_append_start hstart hinner).mpr hended
        rw [unmatched_cons_of_endedIn hop hended, unmatched_cons_of_endedIn hop hended', ih]
      · have hended' := mt (endedIn_append_start hstart hinner).mp hended
        rw [unmatched_cons_of_not_endedIn hop hended, unmatched_cons_of_not_endedIn hop hended', ih,
          List.cons_append]

end Start

namespace Unfinished

variable {stack : List Open} {ops : List Operation}

/-- What is still to be ended are the unmatched openings. -/
theorem unmatched_eq (h : Unfinished stack ops) :
    (unmatched ops).map Operation.opened? = stack.reverse.map some := by
  induction h with
  | nested h => rw [h.unmatched_eq_nil]; rfl
  | inside _ hstart hinner ih =>
    rw [unmatched_append_start hstart hinner, List.map_append, ih, List.reverse_cons,
      List.map_append, List.map_singleton, List.map_singleton, hstart]

theorem length_unmatched (h : Unfinished stack ops) : (unmatched ops).length = stack.length := by
  have hlength := congrArg List.length h.unmatched_eq
  rwa [List.length_map, List.length_map, List.length_reverse] at hlength

/-- What is to be ended next is the innermost unmatched opening. -/
theorem head?_eq_some_iff (h : Unfinished stack ops) {kind : Open} :
    stack.head? = some kind ↔
      ∃ start, (unmatched ops).getLast? = some start ∧ start.opened? = some kind := by
  have hlast : (unmatched ops).getLast?.map Operation.opened? = stack.head?.map some := by
    rw [← List.getLast?_map, h.unmatched_eq, List.getLast?_map, List.getLast?_reverse]
  rw [← Option.map_eq_some_iff, hlast, Option.map_eq_some_iff]
  simp

theorem wellNested_iff (h : Unfinished stack ops) : WellNested ops ↔ stack = [] := by
  constructor
  · intro hops
    rw [← List.length_eq_zero_iff, ← h.length_unmatched, hops.unmatched_eq_nil]
    rfl
  · rintro rfl
    exact h.wellNested

/-- Operations can be completed by ending what is still to be ended. -/
theorem append_endings (h : Unfinished stack ops) :
    WellNested (ops ++ stack.map Open.ending) := by
  induction stack generalizing ops with
  | nil =>
    rw [List.map_nil, List.append_nil]
    exact h.wellNested
  | cons kind stack ih =>
    rw [List.map_cons, List.append_cons]
    exact ih h.finish

end Unfinished

/-! ### Calls that are not refused -/

/-- The operation that is recorded by a call that is not refused. -/
def Call.operation? : Call → Option Operation
  | .begin _ | .addText _ => none
  | .startRoot => some .rootStart
  | .startColumn modifiers horizontal vertical => some (.columnStart modifiers horizontal vertical)
  | .startRow modifiers horizontal vertical => some (.rowStart modifiers horizontal vertical)
  | .startBox modifiers horizontal vertical => some (.boxStart modifiers horizontal vertical)
  | .textRun run => some (.text run)
  | .endRoot => some .rootEnd
  | .endContainer => some .containerEnd

open Writer (empty)

/-- None of these calls is refused. -/
def Accepted (calls : List Call) : Prop :=
  ∀ before c, before ++ [c] <+: calls → ¬ (empty.after before).Refuses c

theorem accepted_iff {calls : List Call} :
    Accepted calls ↔
      ∀ i, (hi : i < calls.length) → ¬ (empty.after (calls.take i)).Refuses calls[i] := by
  constructor
  · intro h i hi
    refine h _ _ ?_
    rw [List.take_append_getElem]
    exact List.take_prefix _ calls
  · rintro h before c ⟨rest, rfl⟩
    have hc := h before.length (by simp)
    simpa using hc

instance (w : Writer) (c : Call) : Decidable (w.Refuses c) :=
  inferInstanceAs (Decidable (_ = _))

instance (calls : List Call) : Decidable (Accepted calls) :=
  decidable_of_iff _ accepted_iff.symm

theorem Accepted.careful {calls : List Call} (h : Accepted calls) : Careful calls :=
  fun before c hcalls hrefuses => absurd hrefuses (h before c hcalls)

theorem accepted_concat {calls : List Call} {c : Call} (h : Accepted (calls ++ [c])) :
    Accepted calls ∧ ¬ (empty.after calls).Refuses c :=
  ⟨fun before c' hcalls => h before c' (hcalls.trans (List.prefix_append calls [c])),
    h calls c List.prefix_rfl⟩

namespace Writer

/-- Something is ended if and only if it was opened last. -/
theorem close_eq_ok_iff {w : Writer} {kind : Open} {op : Operation} :
    (w.close kind op).1 = .ok () ↔ w.opened.head? = some kind := by
  unfold close
  cases w.opened with
  | nil => simp
  | cons last rest => by_cases hlast : last = kind <;> simp [hlast]

theorem close_eq_error {w : Writer} {kind : Open} {op : Operation}
    (h : w.opened.head? ≠ some kind) : (w.close kind op).1 = .error .unbalanced := by
  unfold close
  cases hopened : w.opened with
  | nil => rfl
  | cons last rest =>
    have hlast : last ≠ kind := by simpa [hopened] using h
    simp only [if_neg hlast]

theorem operations_close {w : Writer} {kind : Open} {op : Operation}
    (h : w.opened.head? = some kind) : (w.close kind op).2.operations = w.operations ++ [op] := by
  unfold close
  cases hopened : w.opened with
  | nil => simp [hopened] at h
  | cons last rest =>
    obtain rfl : last = kind := by simpa [hopened] using h
    simp [operations]

theorem operations_start (w : Writer) (kind : Open) (op : Operation) :
    (w.start kind op).operations = w.operations ++ [op] :=
  List.reverse_cons

/-- A call that is not refused records its operation, if it has one. -/
theorem operations_call {w : Writer} {c : Call} (h : ¬ w.Refuses c) :
    (w.call c).2.operations = w.operations ++ c.operation?.toList := by
  cases c with
  | begin o => exact (List.append_nil _).symm
  | addText text =>
    rw [call, addText_eq]
    exact (List.append_nil _).symm
  | startRoot | startColumn | startRow | startBox => exact operations_start w _ _
  | textRun run => exact List.reverse_cons
  | endRoot =>
    refine operations_close (by_contra fun hhead => h ?_)
    rw [Refuses, call, endRoot, close_eq_error hhead]
    rfl
  | endContainer =>
    refine operations_close (by_contra fun hhead => h ?_)
    rw [Refuses, call, endContainer, close_eq_error hhead]
    rfl

theorem operations_after {calls : List Call} (h : Accepted calls) :
    (empty.after calls).operations = calls.filterMap Call.operation? := by
  induction calls using List.reverseRecOn with
  | nil => rfl
  | append_singleton calls c ih =>
    obtain ⟨hbefore, hlast⟩ := accepted_concat h
    rw [after_concat, operations_call hlast, ih hbefore, List.filterMap_append]
    cases c <;> rfl

theorem document_eq_error {w : Writer} (h : w.opened ≠ []) :
    w.document = .error (.unclosed w.opened.length) := by
  unfold document
  cases hopened : w.opened with
  | nil => exact absurd hopened h
  | cons last rest => rfl

end Writer

/-- **Calls of which none is refused.** What the calls record is one operation for each start, each
end and each text, and can be completed to well-nested operations. What can be ended next is the
innermost unmatched opening. The document can be finished if and only if its operations are well
nested, and otherwise the error gives the number of unmatched openings. -/
theorem recorded_of_accepted {calls : List Call} (haccepted : Accepted calls) {w : Writer}
    (hw : empty.after calls = w) :
    w.operations = calls.filterMap Call.operation? ∧
      (∃ rest, WellNested (w.operations ++ rest)) ∧
      (w.endContainer.1 = .ok () ↔ ∃ start, (unmatched w.operations).getLast? = some start ∧
        start.opened? = some .container) ∧
      (w.endRoot.1 = .ok () ↔ ∃ start, (unmatched w.operations).getLast? = some start ∧
        start.opened? = some .root) ∧
      ((∃ d, w.document = .ok d) ↔ WellNested w.operations) ∧
      (¬ WellNested w.operations → 1 ≤ (unmatched w.operations).length ∧
        w.document = .error (.unclosed (unmatched w.operations).length)) := by
  subst hw
  have hopen := unfinished_after haccepted.careful
  refine ⟨Writer.operations_after haccepted, ⟨_, hopen.append_endings⟩,
    Writer.close_eq_ok_iff.trans hopen.head?_eq_some_iff,
    Writer.close_eq_ok_iff.trans hopen.head?_eq_some_iff, ?_, fun hnested => ?_⟩
  · rw [hopen.wellNested_iff]
    constructor
    · rintro ⟨d, hd⟩
      exact (Writer.document_eq_ok_iff.mp hd).1
    · intro hopened
      exact ⟨_, Writer.document_eq_ok_iff.mpr ⟨hopened, rfl⟩⟩
  · have hopened := mt hopen.wellNested_iff.mpr hnested
    rw [hopen.length_unmatched]
    exact ⟨List.length_pos_iff.mpr hopened, Writer.document_eq_error hopened⟩

/-- A box that is ended in a row that is not, with texts and a new beginning between the calls. -/
def unfinishedRow : List Call :=
  [.addText "go", .startRoot, .startRow [] .leading .center, .begin {},
    .startBox [] .center .center, .textRun ⟨[], 0, .black, .zero, .zero, .center⟩,
    .addText "go", .endContainer]

theorem recorded_of_accepted_unfinishedRow :
    Accepted unfinishedRow ∧
      (empty.after unfinishedRow).endContainer.1 = .ok () ∧
      (empty.after unfinishedRow).endRoot.1 ≠ .ok () ∧
      (empty.after unfinishedRow).document = .error (.unclosed 2) := by
  have haccepted : Accepted unfinishedRow := by decide
  have hunmatched : unmatched (empty.after unfinishedRow).operations =
      [.rootStart, .rowStart [] .leading .center] := by decide
  obtain ⟨-, -, hcontainer, hroot, -, hunclosed⟩ := recorded_of_accepted haccepted rfl
  rw [hunmatched] at hcontainer hroot hunclosed
  refine ⟨haccepted, hcontainer.mpr ⟨_, rfl, rfl⟩, fun h => ?_, (hunclosed (by decide)).2⟩
  obtain ⟨start, hstart, hkind⟩ := hroot.mp h
  obtain rfl := Option.some.inj hstart
  cases hkind

end LayoutCompiler.Document
