import LayoutCompiler.Document.Options

/-
Recording documents step by step. A writer keeps the table of texts, with a map from
the texts to their numbers, the operations so far, and which of the roots and
containers that were started are still open. Ending something other than what was
opened last is an error, and so is finishing while anything is open; the innermost
open one counts as closed even if it was not the one to be ended.
-/

namespace LayoutCompiler.Document

/-- What has been started and not ended. -/
inductive Open where
  | root
  | container
  deriving DecidableEq, Repr

/-- The texts of a table with their numbers: those of their places. -/
def numbersOf (texts : List String) : List (String × TextId) :=
  texts.zipIdx.map fun t => (t.1, UInt32.ofNat t.2)

/-- A table of texts, and the map in which the numbers of its texts are looked up. -/
structure TextTable where
  texts : List String := []
  numbers : List (String × TextId) := []
  agree : numbers = numbersOf texts := by rfl
  deriving DecidableEq, Repr

namespace TextTable

theorem numbersOf_concat (texts : List String) (text : String) :
    numbersOf (texts ++ [text]) = numbersOf texts ++ [(text, UInt32.ofNat texts.length)] := by
  simp [numbersOf, List.zipIdx_append]

/-- The number of a text, from the map. A new text gets the next number and is put into both. -/
def add (x : TextTable) (text : String) : TextId × TextTable :=
  match x.numbers.lookup text with
  | some id => (id, x)
  | none =>
    let id := UInt32.ofNat x.texts.length
    (id, ⟨x.texts ++ [text], x.numbers ++ [(text, id)], by rw [x.agree, numbersOf_concat]⟩)

end TextTable

/-- A document being written. -/
structure Writer where
  /-- The header, once a document has been begun. -/
  header : Option Header := none
  table : TextTable := {}
  /-- The operations, last one first. -/
  recorded : List Operation := []
  /-- What is open, innermost first. -/
  opened : List Open := []
  deriving DecidableEq, Repr

/-- Why writing fails. -/
inductive WriteError where
  /-- What is to be ended was not opened last. -/
  | unbalanced
  /-- `count` roots and containers are open at the end. -/
  | unclosed (count : Nat)
  deriving DecidableEq, Repr

/-- The wording of an error. -/
def WriteError.message : WriteError → String
  | unbalanced => "Container end without a matching start"
  | unclosed count => "Document finished with " ++ toString count ++ " open container(s)"

namespace Writer

/-- A writer that has recorded nothing. -/
def empty : Writer := {}

/-- The operations so far, in order. -/
def operations (w : Writer) : List Operation :=
  w.recorded.reverse

/-- Begins a document, or begins it anew with other options. -/
def begin (w : Writer) (o : Options) : Writer :=
  { w with header := some o.header }

/-- The texts so far, in order. -/
def texts (w : Writer) : List String :=
  w.table.texts

/-- The number of a text, which is added to the table if it is new. -/
def addText (w : Writer) (text : String) : TextId × Writer :=
  let (id, table) := w.table.add text
  (id, { w with table })

/-- Records an operation. -/
def push (w : Writer) (op : Operation) : Writer :=
  { w with recorded := op :: w.recorded }

/-- Records an operation that opens something. -/
def start (w : Writer) (kind : Open) (op : Operation) : Writer :=
  { w with recorded := op :: w.recorded, opened := kind :: w.opened }

/-- Ends what was opened last, which must be of the given kind. -/
def close (w : Writer) (kind : Open) (op : Operation) : Except WriteError Unit × Writer :=
  match w.opened with
  | [] => (.error .unbalanced, w)
  | last :: rest =>
    if last = kind then (.ok (), { w with recorded := op :: w.recorded, opened := rest })
    else (.error .unbalanced, { w with opened := rest })

def startRoot (w : Writer) : Writer :=
  w.start .root .rootStart

def startColumn (w : Writer) (modifiers : List Modifier) (horizontal : Alignment)
    (vertical : Arrangement) : Writer :=
  w.start .container (.columnStart modifiers horizontal vertical)

def startRow (w : Writer) (modifiers : List Modifier) (horizontal : Arrangement)
    (vertical : Alignment) : Writer :=
  w.start .container (.rowStart modifiers horizontal vertical)

def startBox (w : Writer) (modifiers : List Modifier) (horizontal vertical : Alignment) :
    Writer :=
  w.start .container (.boxStart modifiers horizontal vertical)

def endRoot (w : Writer) : Except WriteError Unit × Writer :=
  w.close .root .rootEnd

/-- Ends the innermost column, row or box. -/
def endContainer (w : Writer) : Except WriteError Unit × Writer :=
  w.close .container .containerEnd

def textRun (w : Writer) (run : TextRun) : Writer :=
  w.push (.text run)

/-- The finished document. Without a beginning it is made for the default options. -/
def document (w : Writer) : Except WriteError Document :=
  if w.opened.isEmpty then
    .ok ⟨w.header.getD ({} : Options).header, w.texts, w.operations⟩
  else .error (.unclosed w.opened.length)

end Writer

end LayoutCompiler.Document
