import LayoutCompiler.Proofs.Conversion.Layouts

/-
Converting a directory: the layouts in it are found in the order of their names
(`layoutFiles_join`) and converted one after another (`convertDirectory_run`). A layout
that cannot be looked up, such as one whose path is too long, is not found, and nothing is
said about it (`convertDirectory_skips_layout`).
-/

namespace LayoutCompiler

open Document (Options)
open Files (Desk Disk FileError IsName Location OnDesk Path Workspace)

/-! ### The layouts of a directory -/

theorem filterM_onDesk {α : Type} {p : α → Converting OnDesk Bool} {f : α → Bool} {desk : Desk}
    (h : ∀ a, p a desk = (.ok (f a), desk)) (l : List α) :
    l.filterM p desk = (.ok (l.filter f), desk) := by
  have hfilter (acc : List α) :
      l.filterAuxM p acc desk = (.ok ((l.filter f).reverse ++ acc), desk) := by
    induction l generalizing acc with
    | nil => rfl
    | cons a l ih =>
      rw [List.filterAuxM, bind_converting, h]
      dsimp only
      rw [ih]
      cases hf : f a <;> simp [hf]
  rw [List.filterM, bind_converting, hfilter]
  show (Except.ok ((l.filter f).reverse ++ []).reverse, desk) = _
  rw [List.append_nil, List.reverse_reverse]

/-- Whether a name inside a directory is taken for that of a layout: it leads to a file, and has the
extension of layouts. -/
def isLayout (d : Disk) (directory : Path) (name : String) : Bool :=
  d.isFile (directory.join name) && (directory.join name).extension? = some layoutExtension

theorem layoutFiles_onDesk {directory : Path} {names : List String} {desk : Desk}
    (h : desk.disk.list directory = .ok names) :
    (layoutFiles directory : Converting OnDesk (List Path)) desk =
      (.ok (((names.filter (isLayout desk.disk directory)).mergeSort (· ≤ ·)).map directory.join),
        desk) := by
  have hlist : (onFiles (Workspace.list directory) : Converting OnDesk (List String)) desk =
      (.ok names, desk) := by
    have hquery : (Workspace.list directory : OnDesk (Except FileError (List String))) desk =
        (desk.disk.list directory, desk) := rfl
    rw [onFiles_onDesk, hquery, h]
    rfl
  rw [layoutFiles, bind_converting, hlist]
  dsimp only
  rw [bind_converting, filterM_onDesk (f := isLayout desk.disk directory)]
  · rfl
  · exact fun _ => rfl

theorem pairwise_lt_of_nodup {names : List String} (h : names.Nodup) :
    (names.mergeSort (· ≤ ·)).Pairwise (· < ·) := by
  have hle : (names.mergeSort (· ≤ ·)).Pairwise fun a b => decide (a ≤ b) = true := by
    refine List.pairwise_mergeSort (fun a b c hab hbc => ?_) (fun a b => ?_) names
    · exact decide_eq_true (String.le_trans (of_decide_eq_true hab) (of_decide_eq_true hbc))
    · rw [Bool.or_eq_true, decide_eq_true_iff, decide_eq_true_iff]
      exact String.le_total a b
  have hne : (names.mergeSort (· ≤ ·)).Nodup := (List.mergeSort_perm names _).nodup_iff.mpr h
  refine (hle.and hne).imp fun {a b} hab => ?_
  rw [← String.not_le]
  exact fun hba => hab.2 (String.le_antisymm (of_decide_eq_true hab.1) hba)

/-- The layouts directly inside a directory are found in the order of their names. -/
theorem layoutFiles_join {input : Path} {source : Location} {all : List String} {desk : Desk}
    (hdisk : desk.disk.WellFormed) (hlinks : ∀ loc, desk.disk.NoLinkAt loc)
    (hinput : desk.disk.lookup input = .ok (source, .directory))
    (hlist : desk.disk.list input = .ok all) :
    ∃ names : List String, (layoutFiles input : Converting OnDesk (List Path)) desk =
        (.ok (names.map input.join), desk) ∧
      names.Pairwise (· < ·) ∧
      ∀ name, name ∈ names ↔ IsLayoutFile desk.disk input source name := by
  obtain ⟨hnodup, hall⟩ := Disk.list_spec hdisk hinput hlist
  obtain ⟨hsource, -⟩ := Disk.lookup_eq_directory.mp hinput
  refine ⟨_, layoutFiles_onDesk hlist, pairwise_lt_of_nodup (hnodup.filter _), fun name => ?_⟩
  rw [List.mem_mergeSort, List.mem_filter, hall, isLayout, Bool.and_eq_true, decide_eq_true_iff,
    Disk.isFile_iff]
  constructor
  · rintro ⟨⟨node, hnode⟩, ⟨loc, content, hlookup⟩, hextension⟩
    obtain ⟨-, rfl, hfile⟩ :=
      (Disk.lookup_join_eq_ok hsource (hdisk.isName hnode) (hlinks _)).mp hlookup
    exact ⟨⟨content, hfile⟩, hextension, _, hlookup⟩
  · intro h
    obtain ⟨⟨content, hfile⟩, hextension, hway⟩ := (isLayoutFile_iff hdisk hlinks hsource).mp h
    obtain ⟨number, hnode, -⟩ := Disk.find?_eq_file.mp hfile
    exact ⟨⟨_, hnode⟩, ⟨_, content, (Disk.lookup_join_eq_ok hsource (hdisk.isName hnode)
      (hlinks _)).mpr ⟨hway, rfl, hfile⟩⟩, hextension⟩

/-! ### The conversion of a directory -/

theorem convertDirectory_onDesk (o : Options) {input output : Path} {inputs : List Path}
    {desk made : Desk} (hinput : desk.disk.isDirectory input = true)
    (houtput : (Files.makeDirectories output : OnDesk (Except FileError Unit)) desk =
      (.ok (), made))
    (hinputs : (layoutFiles input : Converting OnDesk (List Path)) made = (.ok inputs, made)) :
    (convertDirectory o input output : Converting OnDesk (List Conversion)) desk =
      (convertFiles o output inputs : Converting OnDesk (List Conversion))
        { made with events := made.events ++ [.convertingFiles inputs.length] } := by
  have hquery : (liftM (Workspace.isDirectory input : OnDesk Bool) : Converting OnDesk Bool) desk =
      (.ok true, desk) := by
    rw [← hinput]
    rfl
  rw [convertDirectory, bind_converting, hquery]
  show (onFiles (Files.makeDirectories output) >>= _ : Converting OnDesk (List Conversion)) desk = _
  rw [bind_converting, onFiles_onDesk, houtput]
  dsimp only [Except.mapError]
  rw [bind_converting, hinputs]
  rfl

/-- A run of the conversion of a directory, which ends on the desk `after`. On the desk `made` the
output directory has been made. Of the layouts `names` in the directory at `source`, those in `done`
have been converted, and those in `left` have not. If writing the first of these has failed, the
beginning of its document is in `torn`. -/
structure DirectoryRun (o : Options) (input output : Path) (desk made after : Desk)
    (result : Except ConversionError (List Conversion)) (source target : Location)
    (names : List String) (done : List (String × Document)) (left : List String)
    (torn : List (String × Document.Bytes)) : Prop where
  prepared : desk.disk.Extends made.disk
  leadsTo : made.disk.LeadsTo output target
  layouts : ∀ name, name ∈ names ↔ IsLayoutFile desk.disk input source name
  sorted : names.Pairwise (· < ·)
  /-- The outputs are directly inside the output directory. -/
  outputs : ∀ name ∈ names,
    (output.join (documentName name)).names = output.names ++ [documentName name]
  distinct : (names.map documentName).Nodup
  split : names = done.map Prod.fst ++ left
  /-- Nothing is left if each layout could be converted alone. -/
  complete : (∀ name ∈ names, ∃ report, convertAlone o input output made name = .ok report) →
    left = []
  alone : ∀ entry ∈ done,
    convertAlone o input output made entry.1 = .ok (conversionOf input output entry)
  /-- Each document is that of the text of its layout. -/
  documents : ∀ entry ∈ done, ∃ content cs,
    desk.disk.find? (source ++ [entry.1]) = some (.file content) ∧
      Text.Utf8.decode content = .ok cs ∧ convertText o (String.ofList cs) = .ok entry.2
  /-- And it is found where the report says. -/
  found : ∀ entry ∈ done, after.disk.lookup (output.join (documentName entry.1)) =
    .ok (target ++ [documentName entry.1], .file entry.2.encode)
  written : Written target (encoded done ++ torn) made.disk after.disk
  /-- Every other file keeps its content, and no other file is new. -/
  files : ∀ loc, (∀ entry ∈ encoded done ++ torn,
      ¬desk.disk.SameFile (target ++ [documentName entry.1]) loc) → ∀ content,
    after.disk.find? loc = some (.file content) ↔ desk.disk.find? loc = some (.file content)
  /-- So do the layouts, even if the documents are written into their directory. -/
  kept : ∀ name ∈ names,
    after.disk.find? (source ++ [name]) = desk.disk.find? (source ++ [name])
  ends : Ends o input output made done left torn result

section Run

variable {o : Options} {d made : Disk} {input output : Path} {source target : Location}
  {name : String} {entry : String × Document}

/-- Making directories makes no layouts. -/
theorem isLayoutFile_of_extends (hdisk : d.WellFormed) (hlinks : ∀ loc, d.NoLinkAt loc)
    (hsource : d.LeadsTo input source) (hextends : d.Extends made) :
    IsLayoutFile made input source name ↔ IsLayoutFile d input source name := by
  rw [isLayoutFile_iff hdisk hlinks hsource, isLayoutFile_iff (hextends.wellFormed hdisk)
    (hextends.noLinks hlinks) (hsource.of_keeps hextends.keeps), hextends.keeps.permit]
  simp only [hextends.find?_eq_file]

/-- The disk on which the output directory has been made is prepared. -/
theorem prepared_of_made (hdisk : d.WellFormed) (hlinks : ∀ loc, d.NoLinkAt loc)
    (hsource : d.LeadsTo input source) (hextends : d.Extends made)
    (htarget : made.LeadsTo output target) (hpresent : made.Present output)
    (hapart : Apart d input source target) : Prepared made input output source target where
  wellFormed := hextends.wellFormed hdisk
  noLinks := hextends.noLinks hlinks
  fromSource := hsource.of_keeps hextends.keeps
  toTarget := htarget
  present := hpresent
  apart name name' hname hname' loc hloc hsame := by
    rw [isLayoutFile_of_extends hdisk hlinks hsource hextends] at hname hname'
    exact hapart name name' hname hname' loc hloc ((hextends.keeps.files _ _).mp hsame)

theorem Converts.document (h : Converts o d input output target entry)
    (hd : Prepared d input output source target) (hname : IsLayoutFile d input source entry.1) :
    ∃ content cs, d.find? (source ++ [entry.1]) = some (.file content) ∧
      Text.Utf8.decode content = .ok cs ∧ convertText o (String.ofList cs) = .ok entry.2 := by
  obtain ⟨hdocument, -⟩ := attempt_eq_ok h.attempted
  obtain ⟨text, htext, hconvert⟩ := Outcome.exists_of_bind_eq_ok hdocument
  obtain ⟨content, cs, hread, hdecode, rfl⟩ := textAt_eq_ok htext
  obtain ⟨content', hlookup, hfile⟩ := hd.lookup_layout hname
  rw [Disk.readFile_of_lookup hlookup] at hread
  cases hpermit : d.permit (source ++ [entry.1]) .read with
  | error e =>
    rw [hpermit] at hread
    cases hread
  | ok =>
    rw [hpermit] at hread
    cases hread
    exact ⟨_, cs, hfile, hdecode, hconvert⟩

theorem Converts.alone (h : Converts o d input output target entry) (hpresent : d.Present output)
    (hname : IsLayoutName entry.1) (events : List Event) :
    convertAlone o input output ⟨d, events⟩ entry.1 = .ok (conversionOf input output entry) := by
  rw [convertAlone_eq o input hpresent hname events, h.attempted]
  dsimp only [settle]
  rw [h.whole]
  rfl

/-- A document that was written is found where it was opened. -/
theorem Converts.found {stored : List (String × Document.Bytes)} {after : Disk}
    (h : Converts o d input output target entry) (hwritten : Written target stored d after)
    (hentry : (entry.1, entry.2.encode) ∈ stored) :
    after.lookup (output.join (documentName entry.1)) =
      .ok (target ++ [documentName entry.1], .file entry.2.encode) := by
  obtain ⟨-, hopen⟩ := attempt_eq_ok h.attempted
  obtain ⟨hslash, hfollow, -⟩ := Disk.openFile_eq_ok.mp hopen
  refine Disk.lookup_eq_ok.mpr ⟨?_, hwritten.written (entry.1, _) hentry⟩
  rw [Disk.route, hslash, if_neg Bool.false_ne_true, List.append_nil]
  exact Disk.follow_of_keeps hwritten.keeps hfollow

end Run

/-- **Converting a directory.** Once the input is known to be a directory, the output directory has
been made, and the input directory has been listed, the layouts in it are converted in the order of
their names, each as it would be alone, up to the first failure, which is then the failure of the
whole. Their documents, and nothing else, are written; they are different files directly inside the
output directory. -/
theorem convertDirectory_run (o : Options) {input output : Path} {desk made : Desk}
    {source : Location} {all : List String} (hdisk : desk.disk.WellFormed)
    (hlinks : ∀ loc, desk.disk.NoLinkAt loc)
    (hinput : desk.disk.lookup input = .ok (source, .directory))
    (houtput : (Files.makeDirectories output : OnDesk (Except FileError Unit)) desk =
      (.ok (), made))
    (hlist : made.disk.list input = .ok all)
    (hapart : ∀ target, made.disk.LeadsTo output target → Apart desk.disk input source target) :
    ∃ result after target names done left torn,
      (convertDirectory o input output : Converting OnDesk (List Conversion)) desk =
        (result, after) ∧
      DirectoryRun o input output desk made after result source target names done left torn := by
  obtain ⟨hextends, hpresent⟩ := Files.makeDirectories_spec houtput
  obtain ⟨hsource, husable⟩ := Disk.lookup_eq_directory.mp hinput
  obtain ⟨target, htarget⟩ := (hpresent rfl).exists_leadsTo (hextends.wellFormed hdisk)
  have hprepared := prepared_of_made hdisk hlinks hsource hextends htarget (hpresent rfl)
    (hapart target htarget)
  obtain ⟨names, hlayouts, hsorted, hnames⟩ := layoutFiles_join hprepared.wellFormed
    hprepared.noLinks (Disk.lookup_eq_directory.mpr ⟨hprepared.fromSource, husable⟩) hlist
  have hlayoutNames : ∀ name ∈ names, IsLayoutName name := fun name hname =>
    ((hnames name).mp hname).isLayoutName hprepared.wellFormed
  have hnodup : names.Nodup :=
    hsorted.imp fun {a b} (hlt : a < b) (heq : a = b) => String.lt_irrefl b (heq ▸ hlt)
  have hstart : Written target [] made.disk
      (Desk.mk made.disk (made.events ++ [.convertingFiles (names.map input.join).length])).disk :=
    .refl target made.disk
  obtain ⟨done, left, torn, result, after, hconvert, hsplit, hdone, hwritten, hends⟩ :=
    convertFiles_join o hprepared names (fun name hname => (hnames name).mp hname) hnodup
      (fun entry hentry => absurd hentry List.not_mem_nil)
      (fun entry hentry => absurd hentry List.not_mem_nil) hstart
  rw [List.nil_append] at hwritten
  have hmem : ∀ entry ∈ done, entry.1 ∈ names := fun entry hentry =>
    hsplit ▸ List.mem_append_left _ (List.mem_map_of_mem hentry)
  have hstored : ∀ entry ∈ encoded done ++ torn,
      IsLayoutFile made.disk input source entry.1 := by
    refine List.forall_mem_append.mpr ⟨fun entry hentry => (hnames _).mp ?_,
      fun entry hentry => (hnames _).mp ?_⟩
    · obtain ⟨converted, hconverted, rfl⟩ := List.mem_map.mp hentry
      exact hmem converted hconverted
    · exact hsplit ▸ List.mem_append_right _ (hends.mem_left_of_mem_torn entry hentry)
  refine ⟨result, after, target, names, done, left, torn,
    (convertDirectory_onDesk o (Disk.isDirectory_iff.mpr ⟨source, hsource, husable⟩) houtput
      hlayouts).trans hconvert, ?_⟩
  exact {
    prepared := hextends
    leadsTo := htarget
    layouts := fun name =>
      (hnames name).trans (isLayoutFile_of_extends hdisk hlinks hsource hextends)
    sorted := hsorted
    outputs := fun name hname => Path.names_join (hlayoutNames name hname).isName_documentName
    distinct := hnodup.map_on fun name hname name' hname' =>
      (hlayoutNames name hname).documentName_inj (hlayoutNames name' hname')
    split := hsplit
    complete := fun hall => hends.left_eq_nil fun name hname =>
      hall name (hsplit ▸ List.mem_append_right _ hname)
    alone := fun entry hentry =>
      (hdone entry hentry).alone hprepared.present (hlayoutNames _ (hmem entry hentry)) made.events
    documents := fun entry hentry => by
      obtain ⟨content, cs, hfile, hconverted⟩ :=
        (hdone entry hentry).document hprepared ((hnames _).mp (hmem entry hentry))
      exact ⟨content, cs, hextends.find?_eq_file.mp hfile, hconverted⟩
    found := fun entry hentry => (hdone entry hentry).found hwritten
      (List.mem_append_left _ (List.mem_map_of_mem hentry))
    written := hwritten
    files := fun loc hloc content => by
      rw [(hwritten.kept loc fun entry hentry hsame => hloc entry hentry
        ((hextends.keeps.files _ _).mp hsame)).2, hextends.find?_eq_file]
    kept := fun name hname => by
      have hlayoutFile := (hnames name).mp hname
      obtain ⟨content, hfile⟩ := hlayoutFile.file
      rw [(hwritten.sameAt_layout hprepared hstored hlayoutFile).2, hfile,
        hextends.find?_eq_file.mp hfile]
    ends := hends }

/-- A directory with two layouts, the second one cut off, and a file that is no layout. -/
def screens : Desk where
  disk := {
    nodes := [(["w"], .directory), (["w", "in"], .directory), (["w", "in", "b.json"], .file 0),
      (["w", "in", "a.json"], .file 1), (["w", "in", ".json"], .file 2)]
    contents := fun n => if n = 0 then [0x7B] else if n = 1 then [0x7B, 0x7D] else []
    working := ["w"] }

theorem noLinks_screens (loc : Location) : screens.disk.NoLinkAt loc := by
  intro target htarget
  have hloc : loc ≠ [] := by
    rintro rfl
    cases htarget
  simpa [screens] using Disk.mem_nodes_of_node? hloc htarget

theorem wellFormed_screens : screens.disk.WellFormed where
  distinct := by decide
  named := by decide
  targets loc target htarget := absurd htarget (noLinks_screens loc target)
  workingNamed := by decide
  working := rfl
  root := rfl

theorem onlyName_screens (loc : Location) : screens.disk.OnlyName loc := by
  rintro loc' (rfl | ⟨number, hfile, hfile'⟩)
  · rfl
  · have hloc : loc ≠ [] := by
      rintro rfl
      cases hfile
    have hloc' : loc' ≠ [] := by
      rintro rfl
      cases hfile'
    have hmem := Disk.mem_nodes_of_node? hloc hfile
    have hmem' := Disk.mem_nodes_of_node? hloc' hfile'
    simp only [screens, List.mem_cons, Prod.mk.injEq, List.not_mem_nil, or_false] at hmem hmem'
    grind

/-- The documents can be written into the directory of the layouts. -/
theorem convertDirectory_run_sameDirectory :
    screens.disk.WellFormed ∧ (∀ loc, screens.disk.NoLinkAt loc) ∧
      screens.disk.lookup ⟨"in"⟩ = .ok (["w", "in"], .directory) ∧
      (Files.makeDirectories ⟨"in"⟩ : OnDesk (Except FileError Unit)) screens =
        (.ok (), screens) ∧
      screens.disk.list ⟨"in"⟩ = .ok ["b.json", "a.json", ".json"] ∧
      (∀ target, screens.disk.LeadsTo ⟨"in"⟩ target →
        Apart screens.disk ⟨"in"⟩ ["w", "in"] target) ∧
      ∃ result after target names done left torn,
        (convertDirectory {} ⟨"in"⟩ ⟨"in"⟩ : Converting OnDesk (List Conversion)) screens =
          (result, after) ∧
        DirectoryRun {} ⟨"in"⟩ ⟨"in"⟩ screens screens after result ["w", "in"] target names done
          left torn := by
  have hapart (target : Location) (_ : screens.disk.LeadsTo ⟨"in"⟩ target) :
      Apart screens.disk ⟨"in"⟩ ["w", "in"] target :=
    fun _ _ _ _ loc _ hsame => onlyName_screens _ loc hsame
  exact ⟨wellFormed_screens, noLinks_screens, rfl, rfl, rfl, hapart,
    convertDirectory_run {} wellFormed_screens noLinks_screens rfl rfl rfl hapart⟩

/-! ### Directories with long paths -/

/-- A run of slashes. -/
def slashes : Nat → String
  | 0 => ""
  | n + 1 => slashes n ++ "/"

theorem utf8ByteSize_slashes (n : Nat) : (slashes n).utf8ByteSize = n := by
  induction n with
  | zero => rfl
  | succ n ih =>
    rw [slashes, String.utf8ByteSize_append, ih]
    rfl

/-- A slash at the end of a path does not change where it leads. -/
theorem leadsTo_append_slash {d : Disk} {p : Path} {loc : Location} (h : d.LeadsTo p loc)
    (hnonempty : p.text ≠ "") : d.LeadsTo ⟨p.text ++ "/"⟩ loc := by
  have htext : (p.text ++ "/").toList = p.text.toList ++ ['/'] := String.toList_append
  have hnames : Path.names ⟨p.text ++ "/"⟩ = p.names := by
    rw [Path.names_eq, Path.names_eq, htext, Path.namesIn_slash]
  have habsolute : Path.isAbsolute ⟨p.text ++ "/"⟩ = p.isAbsolute := by
    rw [Path.isAbsolute, Path.isAbsolute, htext,
      List.head?_append_of_ne_nil _ (mt String.toList_eq_nil_iff.mp hnonempty)]
  refine ⟨?_, h.directory, ?_⟩
  · rw [Disk.start, hnames, habsolute]
    exact h.walks
  · rw [htext, List.mem_append]
    rintro (hmem | hmem)
    · exact h.noNul hmem
    · cases List.mem_singleton.mp hmem

theorem leadsTo_append_slashes {d : Disk} {p : Path} {loc : Location} (h : d.LeadsTo p loc)
    (hnonempty : p.text ≠ "") (n : Nat) : d.LeadsTo ⟨p.text ++ slashes n⟩ loc := by
  induction n with
  | zero => rwa [slashes, String.append_empty]
  | succ n ih =>
    rw [slashes, ← String.append_assoc]
    refine leadsTo_append_slash ih fun hempty => hnonempty ?_
    exact (String.append_eq_empty_iff.mp hempty).1

theorem utf8ByteSize_join (p : Path) (name : String) :
    p.text.utf8ByteSize + name.utf8ByteSize ≤ (p.join name).text.utf8ByteSize := by
  unfold Path.join
  split
  · exact Nat.le_of_eq String.utf8ByteSize_append.symm
  · rw [String.utf8ByteSize_append, String.utf8ByteSize_append]
    omega

/-- In a directory whose path is so long that no layout can be added to it, none is found. -/
theorem not_isLayoutFile_of_long {d : Disk} {input : Path} {source : Location} {name : String}
    (hdisk : d.WellFormed) (hlinks : ∀ loc, d.NoLinkAt loc) (hsource : d.LeadsTo input source)
    (hlong : Disk.maxPath ≤ input.text.utf8ByteSize + 6) :
    ¬IsLayoutFile d input source name := by
  intro h
  obtain ⟨-, -, hshort, -⟩ := (isLayoutFile_iff hdisk hlinks hsource).mp h
  obtain ⟨hname, hstem⟩ := Path.eq_of_splitName (h.isLayoutName hdisk).extension
  have hsize : 6 ≤ name.utf8ByteSize := by
    have hpos := Nat.pos_of_ne_zero (mt String.utf8ByteSize_eq_zero_iff.mp hstem)
    have hextension : ".".utf8ByteSize = 1 ∧ layoutExtension.utf8ByteSize = 4 := by decide
    rw [hname, String.utf8ByteSize_append, String.utf8ByteSize_append]
    omega
  have hjoin := utf8ByteSize_join input name
  omega

/-- Where no layout is found, the conversion succeeds without a report. -/
theorem convertDirectory_of_none (o : Options) {input output : Path} {source : Location}
    {all : List String} {desk made : Desk} (hdisk : desk.disk.WellFormed)
    (hlinks : ∀ loc, desk.disk.NoLinkAt loc)
    (hinput : desk.disk.lookup input = .ok (source, .directory))
    (houtput : (Files.makeDirectories output : OnDesk (Except FileError Unit)) desk =
      (.ok (), made))
    (hlist : made.disk.list input = .ok all)
    (hnone : ∀ name, ¬IsLayoutFile desk.disk input source name) :
    ((convertDirectory o input output : Converting OnDesk (List Conversion)) desk).1 = .ok [] := by
  obtain ⟨hextends, -⟩ := Files.makeDirectories_spec houtput
  obtain ⟨hsource, husable⟩ := Disk.lookup_eq_directory.mp hinput
  obtain ⟨names, hlayouts, -, hnames⟩ := layoutFiles_join (hextends.wellFormed hdisk)
    (hextends.noLinks hlinks)
    (Disk.lookup_eq_directory.mpr ⟨hsource.of_keeps hextends.keeps, husable⟩) hlist
  obtain rfl : names = [] := List.eq_nil_iff_forall_not_mem.mpr fun name hname =>
    hnone name ((isLayoutFile_of_extends hdisk hlinks hsource hextends).mp ((hnames name).mp hname))
  rw [convertDirectory_onDesk o (Disk.isDirectory_iff.mpr ⟨source, hsource, husable⟩) houtput
    hlayouts]
  rfl

/-- A layout is skipped, without a report and without a failure, if the path to it is too long to be
used. -/
theorem convertDirectory_skips_layout :
    screens.disk.lookup ⟨"in" ++ slashes 4090⟩ = .ok (["w", "in"], .directory) ∧
      screens.disk.find? (["w", "in"] ++ ["a.json"]) = some (.file [0x7B, 0x7D]) ∧
      (Path.join ⟨"in" ++ slashes 4090⟩ "a.json").extension? = some layoutExtension ∧
      ((convertDirectory {} ⟨"in" ++ slashes 4090⟩ ⟨"in"⟩ :
        Converting OnDesk (List Conversion)) screens).1 = .ok [] := by
  have hfolder : screens.disk.lookup ⟨"in"⟩ = .ok (["w", "in"], .directory) := rfl
  have hsize : ("in" ++ slashes 4090).utf8ByteSize = 4092 := by
    rw [String.utf8ByteSize_append, utf8ByteSize_slashes]
    rfl
  obtain ⟨hleads, -, hnonempty, -⟩ := Disk.lookup_eq_directory.mp hfolder
  have hleads' := leadsTo_append_slashes hleads hnonempty 4090
  have hlookup : screens.disk.lookup ⟨"in" ++ slashes 4090⟩ = .ok (["w", "in"], .directory) := by
    refine Disk.lookup_eq_directory.mpr ⟨hleads', hleads'.noNul, ?_, ?_⟩
    · exact fun hempty => hnonempty (String.append_eq_empty_iff.mp hempty).1
    · show ("in" ++ slashes 4090).utf8ByteSize < Disk.maxPath
      rw [hsize]
      decide
  have hlist : screens.disk.list ⟨"in" ++ slashes 4090⟩ =
      .ok ["b.json", "a.json", ".json"] := by
    rw [Disk.list, hlookup]
    rfl
  refine ⟨hlookup, rfl, (Path.extension?_join (by decide)).trans (by decide),
    convertDirectory_of_none {} wellFormed_screens noLinks_screens hlookup rfl hlist fun name =>
      not_isLayoutFile_of_long wellFormed_screens noLinks_screens hleads' ?_⟩
  show Disk.maxPath ≤ ("in" ++ slashes 4090).utf8ByteSize + 6
  rw [hsize]
  decide

end LayoutCompiler
