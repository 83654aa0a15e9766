import LayoutCompiler.Document.Writer

/-
Nested operations. `WellNested` says that every root and every container of a list of
operations is ended after what is inside it, and by the operation that is for its kind.
`Unfinished` says the same of a list with some openings still to be ended: what is open
is a stack, and after each opening that is on it come well-nested operations only.
-/

namespace LayoutCompiler.Document

/-! ### Openings and endings -/

/-- The kind of what an operation opens. -/
def Operation.opened? : Operation → Option Open
  | rootStart => some .root
  | columnStart _ _ _ | rowStart _ _ _ | boxStart _ _ _ => some .container
  | rootEnd | containerEnd | text _ => none

/-- The kind of what an operation ends. -/
def Operation.ended? : Operation → Option Open
  | rootEnd => some .root
  | containerEnd => some .container
  | rootStart | columnStart _ _ _ | rowStart _ _ _ | boxStart _ _ _ | text _ => none

/-- The operation that ends what is open. -/
def Open.ending : Open → Operation
  | root => .rootEnd
  | container => .containerEnd

theorem Open.opened?_ending (kind : Open) : kind.ending.opened? = none := by
  cases kind <;> rfl

theorem Open.ended?_ending (kind : Open) : kind.ending.ended? = some kind := by
  cases kind <;> rfl

theorem Operation.ended?_of_opened? {op : Operation} {kind : Open} (h : op.opened? = some kind) :
    op.ended? = none := by
  cases op <;> simp_all [opened?, ended?]

/-! ### Well-nested operations -/

/-- Everything that is opened is ended by the operation for its kind, after what is inside it. -/
inductive WellNested : List Operation → Prop where
  | nil : WellNested []
  | text (run : TextRun) {ops : List Operation} : WellNested ops → WellNested (.text run :: ops)
  | block {start : Operation} {kind : Open} {inner ops : List Operation} :
      start.opened? = some kind → WellNested inner → WellNested ops →
        WellNested (start :: (inner ++ kind.ending :: ops))

namespace WellNested

variable {ops ops' : List Operation}

theorem append (h : WellNested ops) (h' : WellNested ops') : WellNested (ops ++ ops') := by
  induction h with
  | nil => exact h'
  | text run _ ih => exact .text run ih
  | block hstart hinner _ _ ih =>
    rw [List.cons_append, List.append_assoc, List.cons_append]
    exact .block hstart hinner ih

/-- One block. -/
theorem enclosed (kind : Open) {start : Operation} (hstart : start.opened? = some kind)
    (h : WellNested ops) : WellNested (start :: (ops ++ [kind.ending])) :=
  .block hstart h .nil

theorem flatMap {α : Type} {f : α → List Operation} {l : List α}
    (each : ∀ a ∈ l, WellNested (f a)) : WellNested (l.flatMap f) := by
  induction l with
  | nil => exact .nil
  | cons a l ih =>
    exact (each a List.mem_cons_self).append (ih fun b hb => each b (List.mem_cons_of_mem a hb))

end WellNested

/-! ### Counting -/

/-- The number of operations that open something. -/
def openings (ops : List Operation) : Nat :=
  ops.countP fun op => op.opened?.isSome

/-- The number of operations that end something. -/
def endings (ops : List Operation) : Nat :=
  ops.countP fun op => op.ended?.isSome

theorem openings_concat (ops : List Operation) (op : Operation) :
    openings (ops ++ [op]) = openings ops + if op.opened?.isSome then 1 else 0 := by
  rw [openings, List.countP_append, List.countP_singleton, openings]

theorem endings_concat (ops : List Operation) (op : Operation) :
    endings (ops ++ [op]) = endings ops + if op.ended?.isSome then 1 else 0 := by
  rw [endings, List.countP_append, List.countP_singleton, endings]

/-- In well-nested operations there is one ending for each opening. -/
theorem WellNested.openings_eq {ops : List Operation} (h : WellNested ops) :
    openings ops = endings ops := by
  unfold openings endings
  induction h with
  | nil => rfl
  | text run _ ih => simpa [Operation.opened?, Operation.ended?] using ih
  | @block start kind inner ops hstart _ _ ihinner ih =>
    have hended := Operation.ended?_of_opened? hstart
    simp only [List.countP_cons, List.countP_append, hstart, hended, kind.opened?_ending,
      kind.ended?_ending, Option.isSome_some, Option.isSome_none, Bool.false_eq_true, ↓reduceIte,
      ihinner, ih]
    omega

/-! ### Operations with some openings still to be ended -/

/-- The openings that are still to be ended are of the given kinds, innermost first, and all other
operations are well nested between them. -/
inductive Unfinished : List Open → List Operation → Prop where
  | nested {ops : List Operation} : WellNested ops → Unfinished [] ops
  | inside {stack : List Open} {ops : List Operation} {start : Operation} {kind : Open}
      {inner : List Operation} : Unfinished stack ops → start.opened? = some kind →
        WellNested inner → Unfinished (kind :: stack) (ops ++ start :: inner)

namespace Unfinished

variable {stack : List Open} {ops : List Operation}

theorem append (h : Unfinished stack ops) {ops' : List Operation} (h' : WellNested ops') :
    Unfinished stack (ops ++ ops') := by
  cases h with
  | nested h => exact .nested (h.append h')
  | inside h hstart hinner =>
    rw [List.append_assoc, List.cons_append]
    exact .inside h hstart (hinner.append h')

theorem start (h : Unfinished stack ops) {op : Operation} {kind : Open}
    (hop : op.opened? = some kind) : Unfinished (kind :: stack) (ops ++ [op]) :=
  .inside h hop .nil

/-- The innermost opening is ended by the operation for its kind. -/
theorem finish {kind : Open} (h : Unfinished (kind :: stack) ops) :
    Unfinished stack (ops ++ [kind.ending]) := by
  cases h with
  | inside h hstart hinner =>
    rw [List.append_assoc, List.cons_append]
    exact h.append (.enclosed kind hstart hinner)

theorem wellNested (h : Unfinished [] ops) : WellNested ops := by
  cases h with
  | nested h => exact h

end Unfinished

end LayoutCompiler.Document
