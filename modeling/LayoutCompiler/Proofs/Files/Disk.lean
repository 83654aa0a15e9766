import LayoutCompiler.Proofs.Files.Walking
import Mathlib.Data.List.Nodup

/-
Paths on a disk. Where the path of a directory leads (`LeadsTo`), the path of a name
inside it leads to that name, unless there is a link (`follow_join`); so files inside a
directory are found and opened by location (`lookup_join_eq_ok`, `openFile_join`), and the
directory lists their names (`list_spec`).
-/

namespace LayoutCompiler.Files

namespace Disk

variable {d d' : Disk} {loc loc' : Location} {e : Entry} {p : Path} {name : String}

/-! ### Names -/

/-- On a disk everything has a name, no location is there twice, the targets of links are paths, the
working directory is there, and the root can be searched. -/
structure WellFormed (d : Disk) : Prop where
  distinct : (d.nodes.map Prod.fst).Nodup
  named : ∀ n ∈ d.nodes, ∀ name ∈ n.1, IsName name
  targets : ∀ loc target, d.node? loc = some (.link target) → '\x00' ∉ target.text.toList
  workingNamed : ∀ name ∈ d.working, IsName name
  working : d.find? d.working = some .directory
  root : d.permit ["."] .reach = .ok ()

theorem WellFormed.isName (h : d.WellFormed) {node : Node}
    (hnode : d.node? (loc ++ [name]) = some node) : IsName name :=
  h.named _ (mem_nodes_of_node? (by simp) hnode) name (by simp)

theorem WellFormed.of_nodes (h : d.WellFormed) (hkeeps : Keeps d d')
    (hdistinct : (d'.nodes.map Prod.fst).Nodup)
    (hnamed : ∀ n ∈ d'.nodes, ∀ name ∈ n.1, IsName name) : d'.WellFormed where
  distinct := hdistinct
  named := hnamed
  targets loc target htarget := h.targets loc target ((hkeeps.links loc target).mp htarget)
  workingNamed := hkeeps.working ▸ h.workingNamed
  working := by
    rw [hkeeps.working]
    exact hkeeps.directories _ h.working
  root := (hkeeps.permit _ _).trans h.root

/-- Names on a path, the single and double dots apart. -/
def Proper (names : List String) : Prop :=
  ∀ name ∈ names, name ≠ "" → name ≠ "." → name ≠ ".." → name.utf8ByteSize ≤ maxName → IsName name

theorem proper_names (hnul : '\x00' ∉ p.text.toList) : Proper p.names :=
  fun _ hname _ => Path.isName_of_mem_names hname hnul

theorem proper_route (hnul : '\x00' ∉ p.text.toList) : Proper (route p) := by
  refine List.forall_mem_append.mpr ⟨proper_names hnul, fun name hname hnonempty => ?_⟩
  split at hname
  · exact absurd (List.mem_singleton.mp hname) hnonempty
  · cases hname

theorem named_start (hloc : ∀ name ∈ loc, IsName name) (p : Path) :
    ∀ name ∈ start loc p, IsName name := by
  unfold start
  split
  · exact fun name hname => absurd hname List.not_mem_nil
  · exact hloc

theorem named_enter (hloc : ∀ name ∈ loc, IsName name) (hname : Proper [name])
    (h : d.enter loc name = .ok (.place loc')) : ∀ name ∈ loc', IsName name := by
  obtain ⟨-, ⟨-, hsame⟩ | ⟨hnonempty, -, hnext⟩⟩ := enter_eq_ok.mp h
  · cases hsame
    exact hloc
  · rcases next_eq_place hnext with ⟨rfl, -⟩ | ⟨rfl, -⟩ | ⟨rfl, hdot, hdots, hshort, -⟩
    · exact hloc
    · exact fun name' hname' => hloc name' ((List.dropLast_sublist loc).subset hname')
    · have hname := hname name (List.mem_singleton_self name) hnonempty hdot hdots hshort
      exact List.forall_mem_append.mpr ⟨hloc, List.forall_mem_singleton.mpr hname⟩

/-- Names lead to locations whose names are names. -/
theorem WellFormed.named_of_walks (hdisk : d.WellFormed) {n m : Nat} {names : List String}
    (h : Walks d n loc names loc' m) (hloc : ∀ name ∈ loc, IsName name) (hnames : Proper names) :
    ∀ name ∈ loc', IsName name := by
  induction h with
  | done => exact hloc
  | step hstep _ ih =>
    obtain ⟨hname, hnames⟩ := List.forall_mem_cons.mp hnames
    exact ih (named_enter hloc (List.forall_mem_singleton.mpr hname) hstep) hnames
  | link hstep _ ih =>
    have hnul := hdisk.targets _ _ (enter_eq_link hstep).1
    obtain ⟨-, hnames⟩ := List.forall_mem_cons.mp hnames
    exact ih (named_start hloc _) (List.forall_mem_append.mpr ⟨proper_route hnul, hnames⟩)

/-! ### Paths of directories -/

/-- A path that the operating system follows. -/
structure Usable (p : Path) : Prop where
  noNul : '\x00' ∉ p.text.toList
  nonempty : p.text ≠ ""
  short : p.text.utf8ByteSize < maxPath

theorem follow_eq_ok {names : List String} :
    d.follow p names = .ok loc ↔
      Usable p ∧ ∃ n, Walks d maxLinks (start d.working p) names loc n := by
  unfold follow
  by_cases hnul : '\x00' ∈ p.text.toList
  · rw [if_pos (List.contains_iff_mem.mpr hnul)]
    exact iff_of_false (by rintro ⟨⟩) fun h => h.1.noNul hnul
  · rw [if_neg (mt List.contains_iff_mem.mp hnul)]
    by_cases hempty : p.text = ""
    · rw [if_pos (String.isEmpty_iff.mpr hempty)]
      exact iff_of_false (by rintro ⟨⟩) fun h => h.1.nonempty hempty
    · rw [if_neg (mt String.isEmpty_iff.mp hempty)]
      by_cases hlong : maxPath ≤ p.text.utf8ByteSize
      · rw [if_pos hlong]
        exact iff_of_false (by rintro ⟨⟩) fun h => Nat.not_lt.mpr hlong h.1.short
      · rw [if_neg hlong]
        have husable : Usable p := ⟨hnul, hempty, Nat.not_le.mp hlong⟩
        constructor
        · intro h
          rcases hwalk : d.walk maxLinks (start d.working p) names with x | ⟨loc', n⟩
          · rw [hwalk] at h
            cases h
          · rw [hwalk] at h
            cases h
            exact ⟨husable, n, walks_of_walk hwalk⟩
        · rintro ⟨-, n, hwalks⟩
          rw [hwalks.walk_eq]
          rfl

theorem follow_of_keeps {names : List String} (hkeeps : Keeps d d')
    (h : d.follow p names = .ok loc) : d'.follow p names = .ok loc := by
  obtain ⟨husable, n, hwalks⟩ := follow_eq_ok.mp h
  rw [← hkeeps.working] at hwalks
  exact follow_eq_ok.mpr ⟨husable, n, hwalks.of_keeps hkeeps⟩

theorem lookup_eq_ok :
    d.lookup p = .ok (loc, e) ↔ d.follow p (route p) = .ok loc ∧ d.find? loc = some e := by
  unfold lookup
  rcases d.follow p (route p) with x | loc'
  · exact iff_of_false (by rintro ⟨⟩) (by rintro ⟨⟨⟩, -⟩)
  · dsimp only [bind, Except.bind]
    cases hfind : d.find? loc' with
    | none =>
      refine iff_of_false (by rintro ⟨⟩) ?_
      rintro ⟨⟨⟩, hfind'⟩
      cases hfind.symm.trans hfind'
    | some e' =>
      constructor
      · rintro ⟨⟩
        exact ⟨rfl, hfind⟩
      · rintro ⟨⟨⟩, hfind'⟩
        cases hfind.symm.trans hfind'
        rfl

/-- The names of a path lead to a directory, whether or not the path is too long to be used. -/
structure LeadsTo (d : Disk) (p : Path) (loc : Location) : Prop where
  walks : ∃ n, Walks d maxLinks (start d.working p) p.names loc n
  directory : d.find? loc = some .directory
  noNul : '\x00' ∉ p.text.toList

theorem LeadsTo.of_keeps (h : d.LeadsTo p loc) (hkeeps : Keeps d d') : d'.LeadsTo p loc where
  walks := by
    obtain ⟨n, hwalks⟩ := h.walks
    rw [hkeeps.working]
    exact ⟨n, hwalks.of_keeps hkeeps⟩
  directory := hkeeps.directories loc h.directory
  noNul := h.noNul

/-- A slash at the end of a path only asks for what is there to be a directory. -/
theorem walks_route {n : Nat} (hdirectory : d.find? loc = some .directory) :
    Walks d maxLinks loc' (route p) loc n ↔ Walks d maxLinks loc' p.names loc n := by
  unfold route
  split
  case isFalse => rw [List.append_nil]
  case isTrue =>
    constructor
    · intro h
      obtain ⟨inner, m, hnames, hslash⟩ := h.of_append
      cases hslash with
      | step hstep hend =>
        cases (enter_slash.mp hstep).2
        cases hend
        exact hnames
      | link hstep => cases (enter_slash.mp hstep).2
    · exact fun h => h.append (.step (enter_slash.mpr ⟨hdirectory, rfl⟩) .done)

/-- What a path leads to is a directory. -/
theorem lookup_eq_directory :
    d.lookup p = .ok (loc, .directory) ↔ d.LeadsTo p loc ∧ Usable p := by
  rw [lookup_eq_ok, follow_eq_ok]
  constructor
  · rintro ⟨⟨husable, n, hwalks⟩, hdirectory⟩
    exact ⟨⟨⟨n, (walks_route hdirectory).mp hwalks⟩, hdirectory, husable.noNul⟩, husable⟩
  · rintro ⟨⟨⟨n, hwalks⟩, hdirectory, -⟩, husable⟩
    exact ⟨⟨husable, n, (walks_route hdirectory).mpr hwalks⟩, hdirectory⟩

theorem isDirectory_iff : d.isDirectory p = true ↔ ∃ loc, d.LeadsTo p loc ∧ Usable p := by
  simp only [← lookup_eq_directory]
  unfold isDirectory
  rcases d.lookup p with x | ⟨loc, _ | _⟩ <;> simp

theorem isFile_iff :
    d.isFile p = true ↔ ∃ loc content, d.lookup p = .ok (loc, .file content) := by
  unfold isFile
  rcases d.lookup p with x | ⟨loc, _ | _⟩ <;> simp

theorem isDirectory_of_keeps (hkeeps : Keeps d d') (h : d.isDirectory p = true) :
    d'.isDirectory p = true := by
  obtain ⟨loc, hleads, husable⟩ := isDirectory_iff.mp h
  exact isDirectory_iff.mpr ⟨loc, hleads.of_keeps hkeeps, husable⟩

/-- A path without a name leads to the root or to the working directory. -/
theorem leadsTo_start (hdisk : d.WellFormed) (h : p.upToName = []) :
    d.LeadsTo p (start d.working p) := by
  have hdots : ∀ n, Walks d maxLinks [] (List.replicate n ".") [] maxLinks := by
    intro n
    induction n with
    | zero => exact .done
    | succ n ih => exact .step (enter_dot.mpr ⟨find?_root d, hdisk.root, rfl⟩) ih
  obtain ⟨n, hnames⟩ := p.names_tidy
  have htidy : p.tidy.names = [] := by
    rw [Path.tidy_of_upToName_eq_nil h]
    split <;> rfl
  rw [htidy, List.nil_append] at hnames
  have hnul : '\x00' ∉ p.text.toList := fun hnul => by
    rcases Path.mem_of_dropIdleEnd_eq_nil h _ (List.mem_reverse.mpr hnul) with hc | hc <;> cases hc
  rcases Path.isAbsolute_or_empty h with habsolute | hempty
  · have hstart : start d.working p = [] := if_pos habsolute
    rw [hstart]
    exact ⟨⟨maxLinks, by rw [hstart, hnames]; exact hdots n⟩, find?_root d, hnul⟩
  · have hstart : start d.working p = d.working := by
      rw [start, Path.isAbsolute, hempty]
      rfl
    have hnone : p.names = [] := by
      rw [Path.names_eq, hempty]
      rfl
    rw [hstart]
    exact ⟨⟨maxLinks, by rw [hstart, hnone]; exact .done⟩, hdisk.working, hnul⟩

/-- The tidy form of a path leads to the same directory. -/
theorem isDirectory_tidy (h : d.isDirectory p = true) (hname : p.upToName ≠ []) :
    d.isDirectory p.tidy = true := by
  obtain ⟨loc, ⟨⟨n, hwalks⟩, hdirectory, hnul⟩, -, -, hshort⟩ := isDirectory_iff.mp h
  obtain ⟨rest, hrest⟩ := p.text_eq_tidy_append
  obtain ⟨k, hnames⟩ := p.names_tidy
  rw [hnames] at hwalks
  obtain ⟨inner, m, hwalks, hdots⟩ := hwalks.of_append
  obtain rfl := hdots.eq_of_dots
  have hnul' : '\x00' ∉ p.tidy.text.toList := fun hmem => hnul (by
    rw [hrest, String.toList_append]
    exact List.mem_append_left _ hmem)
  refine isDirectory_iff.mpr ⟨loc, ⟨⟨m, ?_⟩, hdirectory, hnul'⟩, hnul', ?_, ?_⟩
  · rw [start, p.isAbsolute_tidy]
    exact hwalks
  · rw [Path.tidy_of_upToName_ne_nil hname, ne_eq, ← String.toList_eq_nil_iff,
      String.toList_ofList, List.reverse_eq_nil_iff]
    exact hname
  · rw [hrest, String.utf8ByteSize_append] at hshort
    exact Nat.lt_of_le_of_lt (Nat.le_add_right _ _) hshort

/-- There is something at a path after the directories on it were made: a directory, or, if there is
no name on it, what it starts from. -/
def Present (d : Disk) (p : Path) : Prop :=
  p.upToName = [] ∨ d.isDirectory p = true

theorem Present.exists_leadsTo (h : d.Present p) (hdisk : d.WellFormed) :
    ∃ loc, d.LeadsTo p loc := by
  rcases h with hname | hdirectory
  · exact ⟨_, leadsTo_start hdisk hname⟩
  · obtain ⟨loc, hleads, -⟩ := isDirectory_iff.mp hdirectory
    exact ⟨loc, hleads⟩

theorem Present.tidy (h : d.Present p) : d.Present p.tidy := by
  by_cases hname : p.upToName = []
  · exact .inl (p.upToName_tidy hname)
  · exact .inr (isDirectory_tidy (h.resolve_left hname) hname)

theorem Present.of_keeps (h : d.Present p) (hkeeps : Keeps d d') : d'.Present p :=
  h.imp id (isDirectory_of_keeps hkeeps)

/-! ### What is inside a directory -/

theorem not_meansDirectory_join_of_noSlash (hnonempty : name ≠ "") (hslash : '/' ∉ name.toList) :
    meansDirectory (p.join name) = false := by
  obtain ⟨front, hjoin, -⟩ := Path.toList_join_eq_append p name
  have hlast : name.toList.getLast? ≠ some '/' := fun hlast =>
    hslash (List.mem_of_getLast? hlast)
  rw [meansDirectory, hjoin,
    List.getLast?_append_of_ne_nil _ (mt String.toList_eq_nil_iff.mp hnonempty)]
  simpa using hlast

theorem not_meansDirectory_join (h : IsName name) : meansDirectory (p.join name) = false :=
  not_meansDirectory_join_of_noSlash h.nonempty h.noSlash

theorem route_join (h : IsName name) : route (p.join name) = (p.join name).names := by
  rw [route, not_meansDirectory_join h, if_neg Bool.false_ne_true, List.append_nil]

theorem noNul_join (hnul : '\x00' ∉ p.text.toList) (hname : IsName name) :
    '\x00' ∉ (p.join name).text.toList := by
  obtain ⟨front, hjoin, hfront⟩ := Path.toList_join_eq_append p name
  rw [hjoin, List.mem_append]
  rintro (hmem | hmem)
  · rcases hfront _ hmem with hmem | hslash
    · exact hnul hmem
    · cases hslash
  · exact hname.noNul hmem

theorem join_nonempty (hname : IsName name) : (p.join name).text ≠ "" := by
  obtain ⟨front, hjoin, -⟩ := Path.toList_join_eq_append p name
  rw [ne_eq, ← String.toList_eq_nil_iff, hjoin]
  simp [hname.nonempty]

theorem walk_name (hdirectory : d.find? loc = some .directory) (hname : IsName name)
    (hlink : d.NoLinkAt (loc ++ [name])) (n : Nat) :
    d.walk n loc [name] =
      (d.permit (loc ++ [name]) .reach).map fun _ => (loc ++ [name], n) := by
  rcases hpermit : d.permit (loc ++ [name]) .reach with x | ⟨⟩
  · refine walk_cons_error ?_
    rw [enter, hdirectory]
    simp [hname.nonempty, hpermit, bind, Except.bind]
  · have hstep : d.enter loc name = .ok (.place (loc ++ [name])) :=
      enter_eq_ok.mpr ⟨hdirectory, .inr ⟨hname.nonempty, hpermit, next_name hname hlink⟩⟩
    rw [walk_cons_place hstep, walk_nil]
    rfl

section Inside

variable (h : d.LeadsTo p loc) (hname : IsName name) (hlink : d.NoLinkAt (loc ++ [name]))

include h hname hlink

/-- The path of a name inside a directory leads to that name, if it is no link. -/
theorem follow_join :
    d.follow (p.join name) (p.join name).names =
      if maxPath ≤ (p.join name).text.utf8ByteSize then .error .nameTooLong
      else (d.permit (loc ++ [name]) .reach).map fun _ => loc ++ [name] := by
  obtain ⟨n, hwalks⟩ := h.walks
  have hstart : start d.working (p.join name) = start d.working p := by
    rw [start, start, Path.isAbsolute_join hname]
  have hnul : ¬(p.join name).text.toList.contains '\x00' = true :=
    mt List.contains_iff_mem.mp (noNul_join h.noNul hname)
  have hnonempty : ¬(p.join name).text.isEmpty = true :=
    mt String.isEmpty_iff.mp (join_nonempty hname)
  rw [follow, if_neg hnul, if_neg hnonempty, hstart, Path.names_join hname, hwalks.walk_append,
    walk_name h.directory hname hlink]
  cases d.permit (loc ++ [name]) .reach <;> rfl

theorem follow_join_eq_ok {target : Location} :
    d.follow (p.join name) (p.join name).names = .ok target ↔
      ((p.join name).text.utf8ByteSize < maxPath ∧ d.permit (loc ++ [name]) .reach = .ok ()) ∧
        target = loc ++ [name] := by
  rw [follow_join h hname hlink]
  by_cases hlong : maxPath ≤ (p.join name).text.utf8ByteSize
  · simp [hlong, Nat.not_lt.mpr hlong]
  · rw [if_neg hlong]
    cases d.permit (loc ++ [name]) .reach <;> simp [Nat.not_le.mp hlong, Except.map, eq_comm]

theorem lookup_join_eq_ok {target : Location} :
    d.lookup (p.join name) = .ok (target, e) ↔
      ((p.join name).text.utf8ByteSize < maxPath ∧ d.permit (loc ++ [name]) .reach = .ok ()) ∧
        target = loc ++ [name] ∧ d.find? target = some e := by
  rw [lookup_eq_ok, route_join hname, follow_join_eq_ok h hname hlink, and_assoc]

theorem openFile_join :
    d.openFile (p.join name) =
      if maxPath ≤ (p.join name).text.utf8ByteSize then .error .nameTooLong
      else do
        d.permit (loc ++ [name]) .reach
        d.openAt (loc ++ [name])
        return loc ++ [name] := by
  rw [openFile, not_meansDirectory_join hname, if_neg Bool.false_ne_true,
    follow_join h hname hlink]
  split
  · rfl
  · cases d.permit (loc ++ [name]) .reach <;> rfl

end Inside

/-- A directory lists the names of what stands in it, each once. -/
theorem list_spec (hdisk : d.WellFormed) {names : List String}
    (h : d.lookup p = .ok (loc, .directory)) (hlist : d.list p = .ok names) :
    names.Nodup ∧ ∀ name, name ∈ names ↔ ∃ node, d.node? (loc ++ [name]) = some node := by
  have hlast (other : Location) (name : String) :
      (if other.dropLast = loc then other.getLast? else none) = some name ↔
        other = loc ++ [name] := by
    constructor
    · intro hother
      split at hother
      case isTrue hdrop => rw [← hdrop, List.dropLast_append_getLast? name hother]
      case isFalse => cases hother
    · rintro rfl
      rw [List.dropLast_concat, if_pos rfl, List.getLast?_concat]
  have hnames : names = (d.nodes.map Prod.fst).filterMap fun other =>
      if other.dropLast = loc then other.getLast? else none := by
    rw [list, h] at hlist
    dsimp only [bind, Except.bind] at hlist
    cases hpermit : d.permit loc .read with
    | error x =>
      rw [hpermit] at hlist
      cases hlist
    | ok =>
      rw [hpermit] at hlist
      rw [List.filterMap_map]
      exact (Except.ok.inj hlist).symm
  subst hnames
  refine ⟨?_, fun name => ?_⟩
  · refine hdisk.distinct.filterMap fun other other' name hname hname' => ?_
    rw [(hlast other name).mp hname, (hlast other' name).mp hname']
  · simp only [List.mem_filterMap, hlast, exists_eq_right]
    have hloc : loc ++ [name] ≠ [] := by simp
    rw [List.mem_map]
    constructor
    · rintro ⟨⟨other, node⟩, hnode, rfl⟩
      rw [node?, if_neg hloc]
      exact Option.isSome_iff_exists.mp
        (List.lookup_isSome_iff.mpr ⟨_, hnode, beq_self_eq_true _⟩)
    · rintro ⟨node, hnode⟩
      exact ⟨_, mem_nodes_of_node? hloc hnode, rfl⟩

end Disk

end LayoutCompiler.Files
