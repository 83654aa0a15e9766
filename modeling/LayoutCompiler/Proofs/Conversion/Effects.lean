import LayoutCompiler.Proofs.Conversion.File
import LayoutCompiler.Proofs.Document.Size
import LayoutCompiler.Proofs.Files.Writing

/-
What converting a file does to a disk. It ends in one of four ways (`FileRun`): before
anything is written, since the input has no document; when a directory cannot be made or
the output cannot be opened, and then only directories are new; with the output cut off;
or with the document written. So a conversion without a document leaves no trace, and one
that succeeds leaves the document and the missing directories above it
(`convertFile_effects`).
-/

namespace LayoutCompiler

open Document (Options)
open Files (Desk Disk Entry FileError Location OnDesk Path Workspace)
open Outcome (exists_of_bind_eq_ok ok_bind)

/-- The paths above a path, deepest first, without the root and the empty path. -/
def Files.Path.above (p : Path) : List Path :=
  (p.parent?.map Path.ancestors).getD []

/-- The error of a document is none of making directories or of writing. -/
theorem documentAt_ne_file (o : Options) (d : Disk) (input : Path) (x : FileError) :
    documentAt o d input ≠ .error (.file x) := by
  unfold documentAt textAt convertText
  cases d.readFile input with
  | error e => rintro ⟨⟩
  | ok bytes =>
    dsimp only [Except.mapError, bind, Except.bind]
    cases Text.Utf8.decode bytes with
    | error e => rintro ⟨⟩
    | ok cs =>
      dsimp only [pure, Except.pure]
      cases Config.Layout.ofJson (String.ofList cs) with
      | error e => rintro ⟨⟩
      | ok l =>
        dsimp only
        cases l.document o <;> rintro ⟨⟩

/-! ### How a conversion ends -/

/-- How the conversion of a file ends on a disk, and the disk then. -/
inductive FileRun (o : Options) (input output : Path) (d : Disk) :
    Except ConversionError Conversion → Disk → Prop where
  /-- There is no document, and nothing was touched. -/
  | refused {e : ConversionError} :
      documentAt o d input = .error e → FileRun o input output d (.error e) d
  /-- The output was not opened, but directories may have been made. -/
  | stopped {document : Document} {e : FileError} {made : Disk} :
      documentAt o d input = .ok document → d.Adds output.above made →
        FileRun o input output d (.error (.file e)) made
  /-- Not all of the document was written. -/
  | torn {document : Document} {e : FileError} {made : Disk} {out : Location} {n : Nat} :
      documentAt o d input = .ok document → d.Adds output.above made →
        (∀ q ∈ output.above, made.isDirectory q = true) → made.openFile output = .ok out →
        FileRun o input output d (.error (.file e)) (made.store out (document.encode.take n))
  | written {document : Document} {made : Disk} {out : Location} :
      documentAt o d input = .ok document → d.Adds output.above made →
        (∀ q ∈ output.above, made.isDirectory q = true) → made.openFile output = .ok out →
        FileRun o input output d (.ok ⟨input, output, document.encode.length⟩)
          (made.store out document.encode)

/-- The last part of a conversion: the output is written and reported. -/
def writeOutput (input output : Path) (bytes : Document.Bytes) : Converting OnDesk Conversion := do
  onFiles (Workspace.writeFile (m := OnDesk) output bytes)
  Workspace.report (m := OnDesk) (.convertedFile input.text output.text bytes.length)
  return ⟨input, output, bytes.length⟩

theorem writeOutput_run {o : Options} {input output : Path} {d : Disk} {document : Document}
    {made : Desk} (hdocument : documentAt o d input = .ok document)
    (hadds : d.Adds output.above made.disk)
    (habove : ∀ q ∈ output.above, made.disk.isDirectory q = true) :
    ∃ result after, writeOutput input output document.encode made = (result, after) ∧
      FileRun o input output d result after.disk := by
  rw [writeOutput, bind_converting, onFiles_onDesk, Files.writeFile_onDesk, Disk.writeFile]
  cases hopen : made.disk.openFile output with
  | error e => exact ⟨_, _, rfl, .stopped hdocument hadds⟩
  | ok out =>
    dsimp only
    rcases made.disk.cut_cases out document.encode with hcut | ⟨e, n, hcut⟩
    · rw [Disk.fill, hcut]
      exact ⟨_, _, rfl, .written hdocument hadds habove hopen⟩
    · rw [Disk.fill, hcut]
      exact ⟨_, _, rfl, .torn hdocument hadds habove hopen⟩

theorem convertFile_run (o : Options) (input output : Path) (desk : Desk) :
    ∃ result after, (convertFile o input output : Converting OnDesk Conversion) desk =
      (result, after) ∧ FileRun o input output desk.disk result after.disk := by
  rw [convertFile, bind_converting, readText_onDesk]
  cases htext : textAt desk.disk input with
  | error e => exact ⟨_, _, rfl, .refused (by rw [documentAt, htext]; rfl)⟩
  | ok text =>
    dsimp only
    rw [bind_converting, lift_converting, reportAll_onDesk]
    cases hconvert : convertText o text with
    | error e => exact ⟨_, _, rfl, .refused (by rw [documentAt, htext, ok_bind, hconvert])⟩
    | ok document =>
      have hdocument : documentAt o desk.disk input = .ok document := by
        rw [documentAt, htext, ok_bind, hconvert]
      let reading : Desk := ⟨desk.disk, desk.events ++ convertTextEvents o text⟩
      cases hparent : output.parent? with
      | none =>
        have habove : output.above = [] := by rw [Files.Path.above, hparent]; rfl
        have hsame : desk.disk.Adds output.above reading.disk := .refl _ _
        exact writeOutput_run hdocument hsame (by simp [habove])
      | some parent =>
        have habove : output.above = parent.ancestors := by rw [Files.Path.above, hparent]; rfl
        have hadds := Files.adds_makeDirectories parent reading
        dsimp only
        rw [bind_converting, onFiles_onDesk]
        rcases hmake : (Files.makeDirectories parent : OnDesk _) reading with ⟨e | ⟨⟩, made⟩
        · rw [hmake] at hadds
          exact ⟨_, _, rfl, .stopped hdocument (habove ▸ hadds)⟩
        · rw [hmake] at hadds
          have hpresent := (Files.makeDirectories_spec hmake).2 rfl
          exact writeOutput_run hdocument (habove ▸ hadds)
            (habove ▸ fun q hq => hpresent.isDirectory_of_mem_ancestors hq)

/-! ### What is left on the disk -/

/-- The second disk is the first one with a file written where the path leads and the missing
directories above the path made, and nothing else changed. -/
structure Wrote (output : Path) (out : Location) (content : List UInt8) (d d' : Disk) : Prop where
  keeps : d.Keeps d'
  found : d'.lookup output = .ok (out, .file content)
  above : ∀ q ∈ output.above, d'.isDirectory q = true
  changes : ∀ loc, ¬d.SameAt d' loc → d'.SameFile out loc ∨
    (d.node? loc = none ∧ d'.find? loc = some .directory ∧ ∃ q ∈ output.above, d'.LeadsTo q loc)

theorem wrote_store {output : Path} {out : Location} {d made : Disk}
    (hadds : d.Adds output.above made) (habove : ∀ q ∈ output.above, made.isDirectory q = true)
    (hopen : made.openFile output = .ok out) (content : List UInt8) :
    Wrote output out content d (made.store out content) := by
  have htakes := Disk.takes_of_openFile hopen
  have hkeeps := Disk.Keeps.store htakes content
  refine ⟨hadds.keeps.trans hkeeps, Disk.lookup_store_of_openFile hopen content,
    fun q hq => Disk.isDirectory_of_keeps hkeeps (habove q hq), fun loc hchanged => ?_⟩
  by_cases hsame : made.SameFile out loc
  · exact .inl ((hkeeps.files out loc).mpr hsame)
  · -- The output changes nothing else, so this is one of the directories that were made.
    have hstored := Disk.sameAt_store htakes hsame content
    have hmade : ¬d.SameAt made loc := fun hmade =>
      hchanged ⟨hstored.1.trans hmade.1, hstored.2.trans hmade.2⟩
    obtain ⟨hnew, q, hq, hleads⟩ := hadds.exists_of_not_sameAt hmade
    have hleads' := hleads.of_keeps hkeeps
    exact .inr ⟨hnew, hleads'.directory, q, hq, hleads'⟩

/-- **What converting a file changes.** If the input cannot be read as text or its text has no
document, the conversion fails for that reason and the disk is as it was, and so it is after every
failure that is not one of making directories or of writing. After such a failure directories above
the output may have been made, and the output may hold the beginning of the document. If the
conversion succeeds, the output is the document of the text that the input had before, the missing
directories above it have been made, and nothing else has changed; the report tells the size of the
document, and the document is read back from its bytes, as long as these can be counted in eight
bytes. -/
theorem convertFile_effects (o : Options) (input output : Path) (desk : Desk) :
    ∃ result after, (convertFile o input output : Converting OnDesk Conversion) desk =
        (result, after) ∧
      (∀ e, documentAt o desk.disk input = .error e →
        result = .error e ∧ after.disk = desk.disk) ∧
      (∀ e, result = .error e → (∀ x, e ≠ .file x) → after.disk = desk.disk) ∧
      (∀ x, result = .error (.file x) → ∃ document,
        documentAt o desk.disk input = .ok document ∧
          (desk.disk.Adds output.above after.disk ∨
            ∃ out n, Wrote output out (document.encode.take n) desk.disk after.disk)) ∧
      ∀ report, result = .ok report → ∃ text document out,
        textAt desk.disk input = .ok text ∧ convertText o text = .ok document ∧
          Wrote output out document.encode desk.disk after.disk ∧
          report = ⟨input, output, document.encode.length⟩ ∧
          (report.size < 2 ^ 64 → Document.decode document.encode = .ok document) := by
  obtain ⟨result, ⟨disk, events⟩, hconvert, hrun⟩ := convertFile_run o input output desk
  refine ⟨result, ⟨disk, events⟩, hconvert, ?_, ?_, ?_, ?_⟩
  · intro e he
    cases hrun with
    | refused he' => exact ⟨congrArg _ (Except.error.inj (he'.symm.trans he)), rfl⟩
    | stopped hdocument | torn hdocument | written hdocument => cases hdocument.symm.trans he
  · intro e he hother
    cases hrun with
    | refused => rfl
    | stopped | torn => exact absurd (Except.error.inj he).symm (hother _)
    | written => cases he
  · intro x hx
    cases hrun with
    | refused he =>
      -- No document is refused because of its output.
      obtain rfl := Except.error.inj hx
      exact absurd he (documentAt_ne_file o desk.disk input x)
    | stopped hdocument hadds => exact ⟨_, hdocument, .inl hadds⟩
    | torn hdocument hadds habove hopen =>
      exact ⟨_, hdocument, .inr ⟨_, _, wrote_store hadds habove hopen _⟩⟩
    | written => cases hx
  · intro report hok
    cases hrun with
    | refused | stopped | torn => cases hok
    | written hdocument hadds habove hopen =>
      obtain rfl := Except.ok.inj hok
      obtain ⟨text, htext, hconvert⟩ := exists_of_bind_eq_ok hdocument
      exact ⟨text, _, _, htext, hconvert, wrote_store hadds habove hopen _, rfl,
        Document.decode_encode_of_length⟩

end LayoutCompiler
