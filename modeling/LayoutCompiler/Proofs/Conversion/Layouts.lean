import LayoutCompiler.Proofs.Conversion.File
import LayoutCompiler.Proofs.Files.Writing

/-
Converting layouts of one directory one after another. A document has the name of its
layout with another extension, so documents are different files and no layout is one of
them. What is written for one layout therefore changes nothing for the others, even where
documents go into the directory of the layouts: each is converted as it would be alone,
up to the first that fails (`convertFiles_join`). `Written` is what all of this keeps.
-/

namespace LayoutCompiler

open Document (Options)
open Files (Desk Disk FileError IsName Location OnDesk Path Workspace)
open Outcome (ok_bind)

/-! ### Layouts and the names of their documents -/

/-- The name of the document of a layout. -/
def documentName (name : String) : String :=
  (Path.splitName name).1 ++ "." ++ documentExtension

theorem outputIn_join {name : String} (hname : IsName name) (input output : Path) :
    outputIn output (input.join name) = some (output.join (documentName name)) := by
  rw [outputIn, Path.stem?_join hname]
  rfl

/-- Names of layouts. -/
structure IsLayoutName (name : String) : Prop where
  isName : IsName name
  extension : (Path.splitName name).2 = some layoutExtension

namespace IsLayoutName

variable {name name' : String}

theorem eq_stem_append (h : IsLayoutName name) :
    name = (Path.splitName name).1 ++ "." ++ layoutExtension :=
  (Path.eq_of_splitName h.extension).1

theorem isName_documentName (h : IsLayoutName name) : IsName (documentName name) := by
  have hlast : (documentName name).toList.getLast? = some 'c' := by
    simp [documentName, documentExtension]
  have hmem (c : Char) (hc : c ∈ (documentName name).toList) (hne : c ≠ 'r') (hne' : c ≠ 'c') :
      c ∈ name.toList := by
    rw [h.eq_stem_append]
    simp only [documentName, documentExtension, String.toList_append, List.mem_append] at hc ⊢
    refine hc.imp id fun hc => ?_
    simp [hne, hne'] at hc
  have hlength : (documentName name).utf8ByteSize ≤ name.utf8ByteSize := by
    have hextension : documentExtension.utf8ByteSize ≤ layoutExtension.utf8ByteSize := by decide
    conv_rhs => rw [h.eq_stem_append]
    simp only [documentName, String.utf8ByteSize_append]
    exact Nat.add_le_add_left hextension _
  refine ⟨?_, ?_, ?_, fun hslash => ?_, fun hnul => ?_, Nat.le_trans hlength h.isName.short⟩
  · intro heq
    simp [heq] at hlast
  · intro heq
    simp [heq] at hlast
  · intro heq
    simp [heq] at hlast
  · exact h.isName.noSlash (hmem '/' hslash (by decide) (by decide))
  · exact h.isName.noNul (hmem '\x00' hnul (by decide) (by decide))

theorem documentName_inj (h : IsLayoutName name) (h' : IsLayoutName name')
    (heq : documentName name = documentName name') : name = name' := by
  rw [h.eq_stem_append, h'.eq_stem_append]
  have hstem : (Path.splitName name).1 = (Path.splitName name').1 :=
    (String.append_left_inj _).mp ((String.append_left_inj _).mp heq)
  rw [hstem]

/-- No document has the name of a layout. -/
theorem ne_documentName (h : IsLayoutName name) : name ≠ documentName name' := by
  intro heq
  rw [h.eq_stem_append, documentName] at heq
  have hlast := congrArg (fun s => s.toList.getLast?) heq
  simp [layoutExtension, documentExtension] at hlast

end IsLayoutName

/-! ### One layout after another -/

/-- A layout directly inside a directory: a file with the extension of layouts, with a path by which
it can be looked up. -/
structure IsLayoutFile (d : Disk) (input : Path) (source : Location) (name : String) : Prop where
  file : ∃ content, d.find? (source ++ [name]) = some (.file content)
  extension : (input.join name).extension? = some layoutExtension
  reached : ∃ found, d.lookup (input.join name) = .ok found

theorem IsLayoutFile.isLayoutName {d : Disk} {input : Path} {source : Location} {name : String}
    (h : IsLayoutFile d input source name) (hdisk : d.WellFormed) : IsLayoutName name := by
  obtain ⟨content, hfile⟩ := h.file
  obtain ⟨number, hnode, -⟩ := Disk.find?_eq_file.mp hfile
  have hname : IsName name := hdisk.isName hnode
  exact ⟨hname, (Path.extension?_join hname).symm.trans h.extension⟩

theorem isLayoutFile_iff {d : Disk} {input : Path} {source : Location} {name : String}
    (hdisk : d.WellFormed) (hlinks : ∀ loc, d.NoLinkAt loc) (hsource : d.LeadsTo input source) :
    IsLayoutFile d input source name ↔
      (∃ content, d.find? (source ++ [name]) = some (.file content)) ∧
        (input.join name).extension? = some layoutExtension ∧
        (input.join name).text.utf8ByteSize < Disk.maxPath ∧
        d.permit (source ++ [name]) .reach = .ok () := by
  constructor
  · intro h
    obtain ⟨⟨loc, e⟩, hfound⟩ := h.reached
    obtain ⟨⟨hshort, hpermit⟩, -⟩ := (Disk.lookup_join_eq_ok hsource
      (h.isLayoutName hdisk).isName (hlinks _)).mp hfound
    exact ⟨h.file, h.extension, hshort, hpermit⟩
  · rintro ⟨⟨content, hfile⟩, hextension, hshort, hpermit⟩
    obtain ⟨number, hnode, -⟩ := Disk.find?_eq_file.mp hfile
    exact ⟨⟨content, hfile⟩, hextension, _, (Disk.lookup_join_eq_ok hsource
      (hdisk.isName hnode) (hlinks _)).mpr ⟨⟨hshort, hpermit⟩, rfl, hfile⟩⟩

/-- No document is written to a layout or to another document: these are no further names of the
file that is there. -/
def Apart (d : Disk) (input : Path) (source target : Location) : Prop :=
  ∀ name name', IsLayoutFile d input source name → IsLayoutFile d input source name' →
    ∀ loc ∈ [source ++ [name'], target ++ [documentName name']],
      d.SameFile (target ++ [documentName name]) loc → loc = target ++ [documentName name]

/-- A disk without symbolic links, on which there is the directory of the layouts and, somewhere
else or at the same place, that of their documents. -/
structure Prepared (d : Disk) (input output : Path) (source target : Location) : Prop where
  wellFormed : d.WellFormed
  noLinks : ∀ loc, d.NoLinkAt loc
  fromSource : d.LeadsTo input source
  toTarget : d.LeadsTo output target
  present : d.Present output
  apart : Apart d input source target

/-- The second disk is the first one with these contents written to the documents in the directory
at `target`, and nothing else changed. -/
structure Written (target : Location) (stored : List (String × Document.Bytes)) (d d' : Disk) :
    Prop where
  keeps : d.Keeps d'
  written : ∀ entry ∈ stored,
    d'.find? (target ++ [documentName entry.1]) = some (.file entry.2)
  kept : ∀ loc, (∀ entry ∈ stored, ¬d.SameFile (target ++ [documentName entry.1]) loc) →
    d.SameAt d' loc

section Layouts

variable {o : Options} {d d' : Disk} {input output : Path} {source target : Location}
  {stored : List (String × Document.Bytes)} {name name' : String}

namespace Prepared

theorem not_sameFile_layout (h : Prepared d input output source target)
    (hname : IsLayoutFile d input source name) (hname' : IsLayoutFile d input source name') :
    ¬d.SameFile (target ++ [documentName name]) (source ++ [name']) := by
  intro hsame
  have heq := h.apart name name' hname hname' _ (by simp) hsame
  exact (hname'.isLayoutName h.wellFormed).ne_documentName
    (List.singleton_inj.mp (List.append_inj_right' heq rfl))

theorem not_sameFile_output (h : Prepared d input output source target)
    (hname : IsLayoutFile d input source name) (hname' : IsLayoutFile d input source name')
    (hne : name ≠ name') :
    ¬d.SameFile (target ++ [documentName name]) (target ++ [documentName name']) := by
  intro hsame
  have heq := h.apart name name' hname hname' _ (by simp) hsame
  refine hne ((hname.isLayoutName h.wellFormed).documentName_inj
    (hname'.isLayoutName h.wellFormed) ?_)
  exact (List.singleton_inj.mp (List.append_cancel_left heq)).symm

theorem lookup_layout (h : Prepared d input output source target)
    (hname : IsLayoutFile d input source name) :
    ∃ content, d.lookup (input.join name) = .ok (source ++ [name], .file content) ∧
      d.find? (source ++ [name]) = some (.file content) := by
  obtain ⟨⟨content, hfile⟩, -, hway⟩ :=
    (isLayoutFile_iff h.wellFormed h.noLinks h.fromSource).mp hname
  exact ⟨content, (Disk.lookup_join_eq_ok h.fromSource (hname.isLayoutName h.wellFormed).isName
    (h.noLinks _)).mpr ⟨hway, rfl, hfile⟩, hfile⟩

end Prepared

namespace Written

theorem refl (target : Location) (d : Disk) : Written target [] d d where
  keeps := .refl d
  written _ h := absurd h List.not_mem_nil
  kept _ _ := ⟨rfl, rfl⟩

/-- Layouts stay, since no document is written to one. -/
theorem sameAt_layout (h : Written target stored d d') (hd : Prepared d input output source target)
    (hstored : ∀ entry ∈ stored, IsLayoutFile d input source entry.1)
    (hname : IsLayoutFile d input source name) : d.SameAt d' (source ++ [name]) :=
  h.kept _ fun entry hentry => hd.not_sameFile_layout (hstored entry hentry) hname

/-- What is where a document goes stays until that is written. -/
theorem sameAt_output (h : Written target stored d d') (hd : Prepared d input output source target)
    (hstored : ∀ entry ∈ stored, IsLayoutFile d input source entry.1)
    (hname : IsLayoutFile d input source name) (hnew : ∀ entry ∈ stored, entry.1 ≠ name) :
    d.SameAt d' (target ++ [documentName name]) :=
  h.kept _ fun entry hentry =>
    hd.not_sameFile_output (hstored entry hentry) hname (hnew entry hentry)

theorem concat (h : Written target stored d d') (hd : Prepared d input output source target)
    (hstored : ∀ entry ∈ stored, IsLayoutFile d input source entry.1)
    (hname : IsLayoutFile d input source name) (hnew : ∀ entry ∈ stored, entry.1 ≠ name)
    (htakes : d'.Takes (target ++ [documentName name])) (content : Document.Bytes) :
    Written target (stored ++ [(name, content)]) d
      (d'.store (target ++ [documentName name]) content) where
  keeps := h.keeps.trans (Disk.Keeps.store htakes content)
  written := by
    refine List.forall_mem_append.mpr ⟨fun entry hentry => ?_, List.forall_mem_singleton.mpr ?_⟩
    · have hother := hd.not_sameFile_output hname (hstored entry hentry) (hnew entry hentry).symm
      rw [← h.keeps.files] at hother
      exact (Disk.find?_store_of_not_sameFile htakes hother).trans (h.written entry hentry)
    · exact Disk.find?_store_self htakes
  kept loc hloc := by
    obtain ⟨hdone, hlast⟩ := List.forall_mem_append.mp hloc
    have hother := hlast _ (List.mem_singleton_self _)
    rw [← h.keeps.files] at hother
    have hkept := h.kept loc hdone
    have hstore := Disk.sameAt_store htakes hother content
    exact ⟨hstore.1.trans hkept.1, hstore.2.trans hkept.2⟩

end Written

section Alone

variable (h : Written target stored d d') (hd : Prepared d input output source target)
  (hstored : ∀ entry ∈ stored, IsLayoutFile d input source entry.1)
  (hname : IsLayoutFile d input source name)

include h hd hstored hname

theorem textAt_of_written : textAt d' (input.join name) = textAt d (input.join name) := by
  obtain ⟨content, hlookup, hfile⟩ := hd.lookup_layout hname
  have hlookup' := Disk.lookup_of_keeps h.keeps hlookup
    ((h.sameAt_layout hd hstored hname).2.trans hfile)
  rw [textAt, textAt, Disk.readFile_of_lookup hlookup, Disk.readFile_of_lookup hlookup',
    h.keeps.permit]

/-- Opening the file of a document is refused for the same reason after others were written. -/
theorem openFile_of_written (hnew : ∀ entry ∈ stored, entry.1 ≠ name) :
    d'.openFile (output.join (documentName name)) =
      d.openFile (output.join (documentName name)) := by
  have hdocument := (hname.isLayoutName hd.wellFormed).isName_documentName
  have hlink' : d'.NoLinkAt (target ++ [documentName name]) := fun target' htarget' =>
    hd.noLinks _ target' ((h.keeps.links _ _).mp htarget')
  rw [Disk.openFile_join (hd.toTarget.of_keeps h.keeps) hdocument hlink',
    Disk.openFile_join hd.toTarget hdocument (hd.noLinks _), h.keeps.permit, Disk.openAt,
    Disk.openAt, (h.sameAt_output hd hstored hname hnew).1, h.keeps.permit, h.keeps.permit]

/-- The conversion of a layout comes to the same after others have been converted. -/
theorem attempt_of_written (o : Options) (hnew : ∀ entry ∈ stored, entry.1 ≠ name) :
    attempt o d' (input.join name) (output.join (documentName name)) =
      attempt o d (input.join name) (output.join (documentName name)) := by
  rw [attempt, attempt, documentAt, documentAt, textAt_of_written h hd hstored hname,
    openFile_of_written h hd hstored hname hnew]

end Alone

/-- The conversion of one layout, the directory of its document being there. -/
theorem convertFile_join (o : Options) (input : Path) (hpresent : d.Present output)
    (hname : IsLayoutName name) (events : List Event) :
    ∃ events', (convertFile o (input.join name) (output.join (documentName name)) :
        Converting OnDesk Conversion) ⟨d, events⟩ =
      ((settle d (input.join name) (output.join (documentName name))
          (attempt o d (input.join name) (output.join (documentName name)))).1,
        ⟨(settle d (input.join name) (output.join (documentName name))
          (attempt o d (input.join name) (output.join (documentName name)))).2, events'⟩) :=
  convertFile_onDesk o _ (Path.parent?_join hname.isName_documentName) hpresent.tidy

/-- What converting a layout comes to on its own. -/
def convertAlone (o : Options) (input output : Path) (desk : Desk) (name : String) :
    Except ConversionError Conversion :=
  ((convertFile o (input.join name) (output.join (documentName name)) :
    Converting OnDesk Conversion) desk).1

theorem convertAlone_eq (o : Options) (input : Path) (hpresent : d.Present output)
    (hname : IsLayoutName name) (events : List Event) :
    convertAlone o input output ⟨d, events⟩ name =
      (settle d (input.join name) (output.join (documentName name))
        (attempt o d (input.join name) (output.join (documentName name)))).1 := by
  obtain ⟨events', hconvert⟩ := convertFile_join o input hpresent hname events
  rw [convertAlone, hconvert]

/-- The report on a layout that was converted. -/
def conversionOf (input output : Path) (entry : String × Document) : Conversion :=
  ⟨input.join entry.1, output.join (documentName entry.1), entry.2.encode.length⟩

/-- A layout has the document, and that can be written as a whole. -/
structure Converts (o : Options) (d : Disk) (input output : Path) (target : Location)
    (entry : String × Document) : Prop where
  attempted : attempt o d (input.join entry.1) (output.join (documentName entry.1)) =
    .ok (entry.2, target ++ [documentName entry.1])
  whole : d.cut (target ++ [documentName entry.1]) entry.2.encode = (.ok (), entry.2.encode)

/-- How the conversion of layouts ends, of which `left` have not been converted: with a report on
each, or with the failure of the first that is left. In the second case the beginning of its
document may have been written, which is then in `torn`. -/
inductive Ends (o : Options) (input output : Path) (desk : Desk) (done : List (String × Document)) :
    (left : List String) → (torn : List (String × Document.Bytes)) →
      Except ConversionError (List Conversion) → Prop
  | all : Ends o input output desk done [] [] (.ok (done.map (conversionOf input output)))
  | failure {name : String} {rest : List String} {e : ConversionError} :
      convertAlone o input output desk name = .error e →
        Ends o input output desk done (name :: rest) [] (.error e)
  | torn {name : String} {rest : List String} {e : FileError} {document : Document} {n : Nat} :
      convertAlone o input output desk name = .error (.file e) →
        documentAt o desk.disk (input.join name) = .ok document →
        Ends o input output desk done (name :: rest) [(name, document.encode.take n)]
          (.error (.file e))

/-- Only the first of the layouts that are left can have been written in part. -/
theorem Ends.mem_left_of_mem_torn {desk : Desk} {done : List (String × Document)}
    {left : List String} {torn : List (String × Document.Bytes)}
    {result : Except ConversionError (List Conversion)}
    (h : Ends o input output desk done left torn result) : ∀ entry ∈ torn, entry.1 ∈ left := by
  cases h with
  | all | failure => exact fun entry hentry => absurd hentry List.not_mem_nil
  | torn => exact List.forall_mem_singleton.mpr List.mem_cons_self

/-- Nothing is left where each layout that is left could be converted alone. -/
theorem Ends.left_eq_nil {desk : Desk} {done : List (String × Document)}
    {left : List String} {torn : List (String × Document.Bytes)}
    {result : Except ConversionError (List Conversion)}
    (h : Ends o input output desk done left torn result)
    (hall : ∀ name ∈ left, ∃ report, convertAlone o input output desk name = .ok report) :
    left = [] := by
  cases h with
  | all => rfl
  | failure hfailure | torn hfailure =>
    obtain ⟨report, hreport⟩ := hall _ List.mem_cons_self
    cases hfailure.symm.trans hreport

/-- The contents of documents. -/
def encoded (done : List (String × Document)) : List (String × Document.Bytes) :=
  done.map fun entry => (entry.1, entry.2.encode)

/-- Where an attempt gets to, a document can be written. -/
theorem takes_of_attempt {document : Document} {loc : Location}
    (hd : Prepared d input output source target) (hname : IsLayoutFile d input source name)
    (hattempt : attempt o d (input.join name) (output.join (documentName name)) =
      .ok (document, loc)) :
    loc = target ++ [documentName name] ∧ d.Takes loc := by
  obtain ⟨-, hopen⟩ := attempt_eq_ok hattempt
  obtain ⟨-, hfollow, -⟩ := Disk.openFile_eq_ok.mp hopen
  exact ⟨((Disk.follow_join_eq_ok hd.toTarget (hname.isLayoutName hd.wellFormed).isName_documentName
    (hd.noLinks _)).mp hfollow).2, Disk.takes_of_openFile hopen⟩

/-- The conversion of one layout after others have been converted: it is converted as it would be
alone, or it fails as it would alone, and then the beginning of its document may have been
written. -/
theorem convertFile_step {desk desk' : Desk} (o : Options)
    (hd : Prepared desk.disk input output source target)
    (hstored : ∀ entry ∈ stored, IsLayoutFile desk.disk input source entry.1)
    (hname : IsLayoutFile desk.disk input source name) (hnew : ∀ entry ∈ stored, entry.1 ≠ name)
    (h : Written target stored desk.disk desk'.disk) :
    (∃ document after, (convertFile o (input.join name) (output.join (documentName name)) :
        Converting OnDesk Conversion) desk' =
          (.ok (conversionOf input output (name, document)), after) ∧
      Converts o desk.disk input output target (name, document) ∧
      Written target (stored ++ [(name, document.encode)]) desk.disk after.disk) ∨
    ∃ e torn after, (convertFile o (input.join name) (output.join (documentName name)) :
        Converting OnDesk Conversion) desk' = (.error e, after) ∧
      (∀ rest, Ends o input output desk [] (name :: rest) torn (.error e)) ∧
      Written target (stored ++ torn) desk.disk after.disk := by
  have hlayout := hname.isLayoutName hd.wellFormed
  obtain ⟨events, hconvert⟩ :=
    convertFile_join o input (hd.present.of_keeps h.keeps) hlayout desk'.events
  have halone := convertAlone_eq o input hd.present hlayout desk.events
  have hsame := attempt_of_written h hd hstored hname o hnew
  rw [hsame] at hconvert
  rcases hattempt : attempt o desk.disk (input.join name) (output.join (documentName name)) with
    e | ⟨document, loc⟩
  · rw [hattempt] at hconvert halone
    refine .inr ⟨e, [], _, hconvert, fun rest => .failure halone, ?_⟩
    rwa [List.append_nil]
  · obtain ⟨rfl, -⟩ := takes_of_attempt hd hname hattempt
    have htakes := Disk.takes_of_openFile (attempt_eq_ok (hsame.trans hattempt)).2
    have hwritten := h.concat hd hstored hname hnew htakes
    rw [hattempt] at hconvert halone
    dsimp only [settle] at hconvert halone
    rw [Disk.cut_of_keeps h.keeps] at hconvert
    rcases desk.disk.cut_cases (target ++ [documentName name]) document.encode with
      hcut | ⟨e, n, hcut⟩
    · rw [hcut] at hconvert
      exact .inl ⟨document, _, hconvert, ⟨hattempt, hcut⟩, hwritten _⟩
    · rw [hcut] at hconvert halone
      exact .inr ⟨_, _, _, hconvert, fun rest => .torn halone (attempt_eq_ok hattempt).1,
        hwritten _⟩

/-- Layouts are converted one after another up to the first failure, each as it would be alone. -/
theorem convertFiles_join {desk desk' : Desk} (o : Options)
    (hd : Prepared desk.disk input output source target) (names : List String)
    (hnames : ∀ name ∈ names, IsLayoutFile desk.disk input source name) (hdistinct : names.Nodup)
    (hstored : ∀ entry ∈ stored, IsLayoutFile desk.disk input source entry.1)
    (hnew : ∀ entry ∈ stored, entry.1 ∉ names)
    (h : Written target stored desk.disk desk'.disk) :
    ∃ done left torn result after,
      (convertFiles o output (names.map input.join) : Converting OnDesk (List Conversion)) desk' =
        (result, after) ∧
      names = done.map Prod.fst ++ left ∧
      (∀ entry ∈ done, Converts o desk.disk input output target entry) ∧
      Written target (stored ++ (encoded done ++ torn)) desk.disk after.disk ∧
      Ends o input output desk done left torn result := by
  induction names generalizing stored desk' with
  | nil =>
    refine ⟨[], [], [], .ok [], desk', rfl, rfl, ?_, ?_, .all⟩
    · exact fun entry hentry => absurd hentry List.not_mem_nil
    · rwa [encoded, List.map_nil, List.append_nil, List.append_nil]
  | cons name names ih =>
    obtain ⟨hname, hnames⟩ := List.forall_mem_cons.mp hnames
    obtain ⟨hother, hdistinct⟩ := List.nodup_cons.mp hdistinct
    have hnewName : ∀ entry ∈ stored, entry.1 ≠ name := fun entry hentry =>
      List.ne_of_not_mem_cons (hnew entry hentry)
    have hnewRest : ∀ entry ∈ stored, entry.1 ∉ names := fun entry hentry =>
      List.not_mem_of_not_mem_cons (hnew entry hentry)
    rw [List.map_cons, convertFiles, outputIn_join (hname.isLayoutName hd.wellFormed).isName]
    dsimp only
    rw [bind_converting]
    rcases convertFile_step o hd hstored hname hnewName h with
      ⟨document, middle, hconvert, hconverts, hwritten⟩ | ⟨e, torn, after, hconvert, hends, hafter⟩
    · obtain ⟨done, left, torn, result, after, hrest, hsplit, hdone, hafter, hends⟩ :=
        ih hnames hdistinct
          (List.forall_mem_append.mpr ⟨hstored, List.forall_mem_singleton.mpr hname⟩)
          (List.forall_mem_append.mpr ⟨hnewRest, List.forall_mem_singleton.mpr hother⟩) hwritten
      refine ⟨(name, document) :: done, left, torn,
        result.map (conversionOf input output (name, document) :: ·), after, ?_, ?_, ?_, ?_, ?_⟩
      · rw [hconvert]
        show (_ >>= _ : Converting OnDesk (List Conversion)) _ = _
        rw [bind_converting, hrest]
        cases result <;> rfl
      · rw [hsplit]
        rfl
      · exact List.forall_mem_cons.mpr ⟨hconverts, hdone⟩
      · rwa [List.append_assoc] at hafter
      · cases hends with
        | all => exact .all
        | failure hfailure => exact .failure hfailure
        | torn hfailure hdocument => exact .torn hfailure hdocument
    · refine ⟨[], name :: names, torn, .error e, after, ?_, rfl, ?_, hafter, hends names⟩
      · rw [hconvert]
      · exact fun entry hentry => absurd hentry List.not_mem_nil

end Layouts

end LayoutCompiler
