import LayoutCompiler.Conversion
import LayoutCompiler.Proofs.Files.Directories
import LayoutCompiler.Proofs.Outcome

/-
Converting a file on a desk. What comes of it does not depend on the events reported
before, and of the disk only on the content of the file, on whether its output can be
opened (`attempt`), and on how much of that can be written (`settle`). Where the directory
of the output is there, all that changes is the output (`convertFile_onDesk`).
-/

namespace LayoutCompiler

open Document (Options)
open Files (Desk Disk FileError Location OnDesk Path Workspace)
open Outcome (exists_of_bind_eq_ok mapError_eq_ok ok_bind)

/-! ### Programs on a desk -/

section Programs

variable {α β : Type}

theorem bind_converting (x : Converting OnDesk α) (f : α → Converting OnDesk β) (desk : Desk) :
    (x >>= f) desk = match x desk with
      | (.ok a, desk') => f a desk'
      | (.error e, desk') => (.error e, desk') := by
  show (ExceptT.bindCont f (x desk).1 : OnDesk (Except ConversionError β)) (x desk).2 = _
  obtain ⟨e | a, desk'⟩ := x desk <;> rfl

theorem lift_converting (x : OnDesk α) (desk : Desk) :
    (liftM x : Converting OnDesk α) desk = (.ok (x desk).1, (x desk).2) :=
  rfl

theorem onFiles_onDesk (action : OnDesk (Except FileError α)) (desk : Desk) :
    (onFiles action : Converting OnDesk α) desk =
      ((action desk).1.mapError .file, (action desk).2) := by
  rw [onFiles, bind_converting, lift_converting]
  obtain ⟨e | a, desk'⟩ := action desk <;> rfl

theorem reportAll_onDesk (events : List Event) (desk : Desk) :
    (reportAll events : OnDesk Unit) desk =
      ((), { desk with events := desk.events ++ events }) := by
  induction events generalizing desk with
  | nil =>
    show ((), desk) = _
    rw [List.append_nil]
  | cons e es ih =>
    rw [reportAll, Files.bind_onDesk, ih]
    show ((), { desk with events := (desk.events ++ [e]) ++ es }) = _
    rw [List.append_assoc]
    rfl

end Programs

/-- The text of a file, or why it cannot be read as text. -/
def textAt (d : Disk) (input : Path) : Except ConversionError String := do
  let bytes ← (d.readFile input).mapError (.reading input)
  let cs ← (Text.Utf8.decode bytes).mapError fun _ => .reading input .notText
  return String.ofList cs

theorem textAt_eq_ok {d : Disk} {input : Path} {text : String} (h : textAt d input = .ok text) :
    ∃ content cs, d.readFile input = .ok content ∧ Text.Utf8.decode content = .ok cs ∧
      text = String.ofList cs := by
  obtain ⟨content, hcontent, h⟩ := exists_of_bind_eq_ok h
  obtain ⟨cs, hcs, h⟩ := exists_of_bind_eq_ok h
  exact ⟨content, cs, mapError_eq_ok.mp hcontent, mapError_eq_ok.mp hcs, (Except.ok.inj h).symm⟩

theorem readText_onDesk (input : Path) (desk : Desk) :
    (readText input : Converting OnDesk String) desk = (textAt desk.disk input, desk) := by
  have hquery : (liftM (Workspace.readFile input : OnDesk (Except FileError (List UInt8))) :
      Converting OnDesk (Except FileError (List UInt8))) desk =
        (.ok (desk.disk.readFile input), desk) := rfl
  rw [readText, bind_converting, hquery, textAt]
  cases desk.disk.readFile input with
  | error e => rfl
  | ok bytes =>
    dsimp only [Except.mapError, bind, Except.bind]
    cases Text.Utf8.decode bytes <;> rfl

/-- The document that the text of a file is converted to. -/
def documentAt (o : Options) (d : Disk) (input : Path) : Except ConversionError Document := do
  let text ← textAt d input
  convertText o text

/-- What converting a file comes to up to the writing of its output, if the directory of that is
there: its document and where that goes, or the first thing that is wrong. -/
def attempt (o : Options) (d : Disk) (input output : Path) :
    Except ConversionError (Document × Location) := do
  let document ← documentAt o d input
  let loc ← (d.openFile output).mapError .file
  return (document, loc)

theorem attempt_eq_ok {o : Options} {d : Disk} {input output : Path} {result : Document × Location}
    (h : attempt o d input output = .ok result) :
    documentAt o d input = .ok result.1 ∧ d.openFile output = .ok result.2 := by
  obtain ⟨document, hdocument, h⟩ := exists_of_bind_eq_ok h
  obtain ⟨loc, hloc, h⟩ := exists_of_bind_eq_ok h
  obtain rfl := Except.ok.inj h
  exact ⟨hdocument, mapError_eq_ok.mp hloc⟩

/-- How a conversion ends after an attempt, and the disk then. -/
def settle (d : Disk) (input output : Path) :
    Except ConversionError (Document × Location) → Except ConversionError Conversion × Disk
  | .error e => (.error e, d)
  | .ok (document, loc) =>
    let (result, written) := d.cut loc document.encode
    ((result.mapError .file).map fun _ => ⟨input, output, document.encode.length⟩,
      d.store loc written)

/-- Converting a file only changes its output, if the directory of the output is there, and nothing
if it fails before the output is written. -/
theorem convertFile_onDesk (o : Options) (input : Path) {output parent : Path} {desk : Desk}
    (hparent : output.parent? = some parent) (hpresent : desk.disk.Present parent) :
    ∃ events, (convertFile o input output : Converting OnDesk Conversion) desk =
      ((settle desk.disk input output (attempt o desk.disk input output)).1,
        ⟨(settle desk.disk input output (attempt o desk.disk input output)).2, events⟩) := by
  have hmake (events : List Event) :
      (Files.makeDirectories parent : OnDesk (Except FileError Unit)) ⟨desk.disk, events⟩ =
        (.ok (), ⟨desk.disk, events⟩) := Files.makeDirectories_of_present hpresent
  rw [convertFile, bind_converting, readText_onDesk, attempt, documentAt]
  cases textAt desk.disk input with
  | error e => exact ⟨desk.events, rfl⟩
  | ok text =>
    rw [ok_bind]
    dsimp only
    rw [bind_converting, lift_converting, reportAll_onDesk]
    dsimp only
    cases convertText o text with
    | error e => exact ⟨_, rfl⟩
    | ok document =>
      rw [ok_bind, hparent]
      dsimp only
      rw [bind_converting, onFiles_onDesk, hmake]
      dsimp only [Except.mapError]
      rw [bind_converting, onFiles_onDesk, Files.writeFile_onDesk, Disk.writeFile]
      cases desk.disk.openFile output with
      | error e => exact ⟨_, rfl⟩
      | ok loc =>
        rw [ok_bind]
        dsimp only [settle, pure, Except.pure, Disk.fill]
        rcases desk.disk.cut loc document.encode with ⟨e | ⟨⟩, written⟩ <;> exact ⟨_, rfl⟩

end LayoutCompiler
