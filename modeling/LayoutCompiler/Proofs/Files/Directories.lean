import LayoutCompiler.Proofs.Files.Disk
import LayoutCompiler.Files.Workspace

/-
Making the directories on a path. It makes directories and nothing else
(`Disk.Extends`), each where the path or one above it leads (`Disk.Adds`), and unless it
fails there is a directory at the path afterwards (`makeDirectories_spec`), and at all
paths above it (`isDirectory_of_mem_ancestors`). Where there is one already nothing
changes (`makeDirectories_of_present`).
-/

namespace LayoutCompiler.Files

namespace Disk

variable {d d' : Disk} {loc loc' : Location} {p : Path}

/-! ### New directories -/

/-- The second disk is the first one with directories where there was nothing. -/
structure Extends (d d' : Disk) : Prop where
  working : d'.working = d.working
  refusal : d'.refusal? = d.refusal?
  limit : d'.limit? = d.limit?
  contents : d'.contents = d.contents
  nodes : ∀ loc, d'.node? loc = d.node? loc ∨
    d.node? loc = none ∧ d'.node? loc = some .directory
  distinct : d.WellFormed → (d'.nodes.map Prod.fst).Nodup
  named : d.WellFormed → ∀ n ∈ d'.nodes, ∀ name ∈ n.1, IsName name

namespace Extends

/-- What was there is there, and what is no directory was there. -/
theorem node?_eq_some (h : Extends d d') {node : Node} (hnode : node ≠ .directory) :
    d'.node? loc = some node ↔ d.node? loc = some node := by
  rcases h.nodes loc with hsame | ⟨hnone, hnew⟩
  · rw [hsame]
  · simp [hnone, hnew, hnode.symm]

theorem node?_eq_file (h : Extends d d') {number : Nat} :
    d'.node? loc = some (.file number) ↔ d.node? loc = some (.file number) :=
  h.node?_eq_some (by simp)

/-- Where nothing was put, nothing changes. -/
theorem sameAt (h : Extends d d') (hnode : d'.node? loc = d.node? loc) : d.SameAt d' loc := by
  refine ⟨hnode, ?_⟩
  rw [find?, find?, hnode]
  congr 1
  funext node
  cases node <;> simp [found?, h.contents]

theorem kept (h : Extends d d') {e : Entry} (hfind : d.find? loc = some e) :
    d'.find? loc = some e := by
  rcases h.nodes loc with hsame | ⟨hnone, -⟩
  · exact (h.sameAt hsame).2.trans hfind
  · rw [find?, hnone] at hfind
    cases hfind

theorem find?_eq_file (h : Extends d d') {content : List UInt8} :
    d'.find? loc = some (.file content) ↔ d.find? loc = some (.file content) := by
  simp only [Disk.find?_eq_file, h.node?_eq_file, h.contents]

theorem keeps (h : Extends d d') : Keeps d d' where
  working := h.working
  refusal := h.refusal
  limit := h.limit
  directories _ := h.kept
  links _ _ := h.node?_eq_some (by simp)
  files _ _ := by simp only [SameFile, h.node?_eq_file]

theorem noLinks (h : Extends d d') (hlinks : ∀ loc, d.NoLinkAt loc) (loc : Location) :
    d'.NoLinkAt loc := fun target htarget =>
  hlinks loc target ((h.keeps.links loc target).mp htarget)

theorem wellFormed (h : Extends d d') (hdisk : d.WellFormed) : d'.WellFormed :=
  hdisk.of_nodes h.keeps (h.distinct hdisk) (h.named hdisk)

theorem refl (d : Disk) : Extends d d :=
  ⟨rfl, rfl, rfl, rfl, fun _ => .inl rfl, fun h => h.distinct, fun h => h.named⟩

theorem trans {d'' : Disk} (h : Extends d d') (h' : Extends d' d'') : Extends d d'' where
  working := h'.working.trans h.working
  refusal := h'.refusal.trans h.refusal
  limit := h'.limit.trans h.limit
  contents := h'.contents.trans h.contents
  nodes loc := by
    rcases h.nodes loc with hsame | ⟨hnone, hnew⟩
    · rw [← hsame]
      exact h'.nodes loc
    · rcases h'.nodes loc with hsame' | ⟨hnone', -⟩
      · exact .inr ⟨hnone, hsame'.trans hnew⟩
      · cases hnew.symm.trans hnone'
  distinct hdisk := h'.distinct (h.wellFormed hdisk)
  named hdisk := h'.named (h.wellFormed hdisk)

end Extends

/-- Besides, each new directory is where one of the paths leads. -/
structure Adds (ps : List Path) (d d' : Disk) : Prop extends Extends d d' where
  new : ∀ loc, d'.node? loc ≠ d.node? loc → ∃ p ∈ ps, d'.LeadsTo p loc

namespace Adds

variable {ps qs : List Path}

theorem exists_of_not_sameAt (h : Adds ps d d') (hchanged : ¬d.SameAt d' loc) :
    d.node? loc = none ∧ ∃ p ∈ ps, d'.LeadsTo p loc := by
  rcases h.nodes loc with hsame | ⟨hnone, hnew⟩
  · exact absurd (h.sameAt hsame) hchanged
  · exact ⟨hnone, h.new loc (by simp [hnone, hnew])⟩

theorem refl (ps : List Path) (d : Disk) : Adds ps d d :=
  ⟨.refl d, fun _ h => absurd rfl h⟩

theorem trans {d'' : Disk} (h : Adds ps d d') (h' : Adds ps d' d'') : Adds ps d d'' where
  toExtends := h.toExtends.trans h'.toExtends
  new loc hnew := by
    by_cases hlater : d''.node? loc = d'.node? loc
    · obtain ⟨p, hp, hleads⟩ := h.new loc (hlater ▸ hnew)
      exact ⟨p, hp, hleads.of_keeps h'.keeps⟩
    · exact h'.new loc hlater

theorem mono (h : Adds ps d d') (hsubset : ps ⊆ qs) : Adds qs d d' :=
  ⟨h.toExtends, fun loc hnew => (h.new loc hnew).imp fun _ hp => ⟨hsubset hp.1, hp.2⟩⟩

end Adds

theorem exists_of_newDirectory (h : d.newDirectory p = .ok loc) :
    ∃ above name, d.follow p p.names.dropLast = .ok above ∧ p.names.getLast? = some name ∧
      d.enter above name = .ok (.place loc) ∧ d.node? loc = none := by
  unfold newDirectory at h
  rcases hfollow : d.follow p p.names.dropLast with x | above
  · rw [hfollow] at h
    cases h
  · rw [hfollow] at h
    rcases hlast : p.names.getLast? with _ | name
    · rw [hlast] at h
      cases h
    · rw [hlast] at h
      dsimp only [bind, Except.bind] at h
      rcases hstep : d.enter above name with x | inner | target
      · rw [hstep] at h
        cases h
      · rw [hstep] at h
        dsimp only at h
        cases hnode : d.node? inner with
        | some node =>
          rw [hnode] at h
          cases h
        | none =>
          rw [hnode] at h
          rcases hpermit : d.permit inner .create with x | ⟨⟩
          · rw [hpermit] at h
            cases h
          · rw [hpermit] at h
            cases h
            exact ⟨above, name, rfl, rfl, hstep, hnode⟩
      · rw [hstep] at h
        cases h

/-- A directory can be put where there is nothing. -/
theorem extends_put_directory (hnew : d.node? loc = none)
    (hnamed : d.WellFormed → ∀ name ∈ loc, IsName name) : Extends d (d.put loc .directory) where
  working := rfl
  refusal := rfl
  limit := rfl
  contents := rfl
  nodes loc' := by
    by_cases hne : loc' = loc
    · subst hne
      exact .inr ⟨hnew, node?_put_self (Takes.ne_nil (.inl hnew)) _⟩
    · exact .inl (node?_put_of_ne hne _)
  distinct hdisk := by
    have hrest : ((d.nodes.filter fun n => n.1 ≠ loc).map Prod.fst).Nodup :=
      hdisk.distinct.sublist (List.filter_sublist.map Prod.fst)
    refine List.nodup_cons.mpr ⟨fun hmem => ?_, hrest⟩
    obtain ⟨n, hn, heq⟩ := List.mem_map.mp hmem
    exact absurd heq (of_decide_eq_true (List.mem_filter.mp hn).2)
  named hdisk := List.forall_mem_cons.mpr
    ⟨hnamed hdisk, fun n hn => hdisk.named n (List.mem_filter.mp hn).1⟩

/-- Where a directory was made, there is one, and it is the only thing that is new. -/
theorem newDirectory_spec (h : d.newDirectory p = .ok loc) :
    Adds [p] d (d.put loc .directory) ∧ (d.put loc .directory).isDirectory p = true := by
  obtain ⟨above, name, hfollow, hlast, hstep, hnew⟩ := exists_of_newDirectory h
  obtain ⟨husable, n, habove⟩ := follow_eq_ok.mp hfollow
  have hnames : p.names = p.names.dropLast ++ [name] :=
    (List.dropLast_append_getLast? name hlast).symm
  have hwalks : Walks d maxLinks (start d.working p) p.names loc n := by
    rw [hnames]
    exact habove.append (.step hstep .done)
  have hextends : Extends d (d.put loc .directory) :=
    extends_put_directory hnew fun hdisk =>
      hdisk.named_of_walks hwalks (named_start hdisk.workingNamed p) (proper_names husable.noNul)
  have hdirectory : (d.put loc .directory).find? loc = some .directory :=
    find?_eq_directory.mpr (node?_put_self (Takes.ne_nil (.inl hnew)) _)
  have hleads : (d.put loc .directory).LeadsTo p loc :=
    ⟨⟨n, hwalks.of_keeps hextends.keeps⟩, hdirectory, husable.noNul⟩
  refine ⟨⟨hextends, fun loc' hchanged => ?_⟩, isDirectory_iff.mpr ⟨loc, hleads, husable⟩⟩
  obtain rfl : loc' = loc := by
    by_contra hne
    exact hchanged (node?_put_of_ne hne _)
  exact ⟨p, List.mem_singleton_self p, hleads⟩

theorem isDirectory_parent {above : Path} (h : p.parent? = some above)
    (hname : above.upToName ≠ []) (hdirectory : d.isDirectory p = true) :
    d.isDirectory above = true := by
  obtain ⟨hnonempty, ⟨rest, htext⟩, names, hnames⟩ := Path.text_eq_parent_append h hname
  obtain ⟨loc, ⟨⟨n, hwalks⟩, hfind, hnul⟩, -, -, hshort⟩ := isDirectory_iff.mp hdirectory
  have hstart : start d.working above = start d.working p := by
    rw [start, start, Path.isAbsolute, Path.isAbsolute, htext, String.toList_append,
      List.head?_append_of_ne_nil _ (mt String.toList_eq_nil_iff.mp hnonempty)]
  rw [hnames] at hwalks
  obtain ⟨inner, m, habove, hmore⟩ := hwalks.of_append
  rw [htext, String.toList_append] at hnul
  rw [htext, String.utf8ByteSize_append] at hshort
  have hnul' : '\x00' ∉ above.text.toList := fun hmem => hnul (List.mem_append_left _ hmem)
  have hleads : d.LeadsTo above inner := ⟨⟨m, hstart ▸ habove⟩, hmore.directory hfind, hnul'⟩
  exact isDirectory_iff.mpr
    ⟨inner, hleads, hnul', hnonempty, Nat.lt_of_le_of_lt (Nat.le_add_right _ _) hshort⟩

/-- The paths above a directory are directories too. -/
theorem isDirectory_of_mem_ancestors {q : Path} (hdirectory : d.isDirectory p = true)
    (hq : q ∈ p.ancestors) : d.isDirectory q = true := by
  unfold Path.ancestors at hq
  generalize p.text.length = fuel at hq
  induction fuel generalizing p with
  | zero => cases hq
  | succ fuel ih =>
    rw [Path.ancestorsWithin] at hq
    split at hq
    case h_1 => cases hq
    case h_2 above habove =>
      rcases List.mem_cons.mp hq with rfl | hq
      · exact hdirectory
      · refine ih (isDirectory_parent habove (fun hname => ?_) hdirectory) hq
        -- A path without a name has no paths above it.
        cases fuel with
        | zero => cases hq
        | succ fuel =>
          rw [Path.ancestorsWithin, Path.parent?_eq_none_iff.mpr hname] at hq
          cases hq

theorem Present.isDirectory_of_mem_ancestors {q : Path} (h : d.Present p) (hq : q ∈ p.ancestors) :
    d.isDirectory q = true := by
  rcases h with hname | hdirectory
  · rw [Path.ancestors_eq_nil_iff.mpr hname] at hq
    cases hq
  · exact Disk.isDirectory_of_mem_ancestors hdirectory hq

theorem newDirectory_of_isDirectory (h : d.isDirectory p = true) :
    d.newDirectory p = .error .alreadyExists := by
  obtain ⟨loc, ⟨⟨n, hwalks⟩, hdirectory, -⟩, husable⟩ := isDirectory_iff.mp h
  rw [find?_eq_directory] at hdirectory
  unfold newDirectory
  rcases List.eq_nil_or_concat' p.names with hnames | ⟨front, name, hnames⟩
  · rw [hnames, List.dropLast_nil, follow_eq_ok.mpr ⟨husable, maxLinks, .done⟩]
    rfl
  · rw [hnames] at hwalks
    obtain ⟨above, m, hfront, hlast⟩ := hwalks.of_append
    rw [hnames, List.dropLast_concat, List.getLast?_concat, follow_eq_ok.mpr ⟨husable, m, hfront⟩]
    dsimp only [bind, Except.bind]
    cases hlast with
    | step hstep hend =>
      cases hend
      rw [hstep]
      dsimp only
      rw [hdirectory]
      rfl
    | link hstep =>
      rw [hstep]
      rfl

/-- Nothing is made where there is a directory. -/
theorem makeDirectory_of_isDirectory (h : d.isDirectory p = true) :
    d.makeDirectory p = (.error .alreadyExists, d) := by
  rw [makeDirectory, newDirectory_of_isDirectory h]

/-- Making a directory either makes a new one or changes nothing. -/
theorem makeDirectory_cases (d : Disk) (p : Path) :
    (∃ loc, d.newDirectory p = .ok loc ∧ d.makeDirectory p = (.ok (), d.put loc .directory)) ∨
      ∃ e, d.makeDirectory p = (.error e, d) := by
  unfold makeDirectory
  cases d.newDirectory p with
  | ok loc => exact .inl ⟨loc, rfl, rfl⟩
  | error e => exact .inr ⟨e, rfl⟩

end Disk

/-! ### Making the directories on a path -/

section MakeDirectories

theorem bind_onDesk {α β : Type} (x : OnDesk α) (f : α → OnDesk β) (desk : Desk) :
    (x >>= f) desk = f (x desk).1 (x desk).2 :=
  rfl

theorem makeDirectory_onDesk (p : Path) (desk : Desk) :
    (Workspace.makeDirectory p : OnDesk (Except FileError Unit)) desk =
      ((desk.disk.makeDirectory p).1, ⟨(desk.disk.makeDirectory p).2, desk.events⟩) :=
  rfl

theorem writeFile_onDesk (p : Path) (content : List UInt8) (desk : Desk) :
    (Workspace.writeFile p content : OnDesk (Except FileError Unit)) desk =
      ((desk.disk.writeFile p content).1,
        ⟨(desk.disk.writeFile p content).2, desk.events⟩) :=
  rfl

/-- What is in the way of a directory is fine if it is one itself. -/
theorem unlessThere_onDesk (p : Path) (e : FileError) (desk : Desk) :
    (makeAll.unlessThere p e : OnDesk (Except FileError Unit)) desk =
      (if e = .alreadyExists ∧ desk.disk.isDirectory p = true then .ok () else .error e,
        desk) := by
  unfold makeAll.unlessThere
  by_cases he : e = .alreadyExists
  · subst he
    rw [if_neg (not_not.mpr rfl), bind_onDesk]
    show (if desk.disk.isDirectory p = true then _ else _ : OnDesk (Except FileError Unit)) desk = _
    cases desk.disk.isDirectory p <;> rfl
  · rw [if_pos he, if_neg fun h => he h.1]
    rfl

/-- A program that only makes directories where the paths lead, and after which there is one at the
path `p`, if it does not fail. -/
def Makes (ps : List Path) (p : Path) (desk : Desk) (result : Except FileError Unit × Desk) :
    Prop :=
  desk.disk.Adds ps result.2.disk ∧ (result.1 = .ok () → result.2.disk.isDirectory p = true)

namespace Makes

variable {ps : List Path} {p : Path} {desk desk' : Desk}

theorem of_unlessThere (e : FileError) :
    Makes ps p desk ((makeAll.unlessThere p e : OnDesk (Except FileError Unit)) desk) := by
  rw [unlessThere_onDesk]
  refine ⟨.refl _ _, fun h => ?_⟩
  split at h
  case isTrue hthere => exact hthere.2
  case isFalse => cases h

theorem of_error {e : FileError} (h : desk.disk.Adds ps desk'.disk) :
    Makes ps p desk (.error e, desk') :=
  ⟨h, by rintro ⟨⟩⟩

theorem of_made {loc : Location} (hp : p ∈ ps) (h : desk.disk.newDirectory p = .ok loc) :
    Makes ps p desk (.ok (), ⟨desk.disk.put loc .directory, desk.events⟩) := by
  obtain ⟨hadds, hdirectory⟩ := Disk.newDirectory_spec h
  exact ⟨hadds.mono (List.cons_subset.mpr ⟨hp, List.nil_subset ps⟩), fun _ => hdirectory⟩

end Makes

theorem makes_makeUnlessThere {ps : List Path} {p : Path} (hp : p ∈ ps) (desk : Desk) :
    Makes ps p desk ((makeAll.makeUnlessThere p : OnDesk (Except FileError Unit)) desk) := by
  rw [makeAll.makeUnlessThere, bind_onDesk, makeDirectory_onDesk]
  rcases desk.disk.makeDirectory_cases p with ⟨loc, hnew, hmake⟩ | ⟨e, hmake⟩
  · rw [hmake]
    exact .of_made hp hnew
  · rw [hmake]
    exact .of_unlessThere e

/-- Making the directories on a path starts with the path itself, and goes on above it where
something on the path is missing. -/
theorem makes_makeAll_cons {p : Path} {above : List Path} (desk : Desk)
    (habove : desk.disk.Adds above
      ((makeAll above : OnDesk (Except FileError Unit)) desk).2.disk) :
    Makes (p :: above) p desk
      ((makeAll (p :: above) : OnDesk (Except FileError Unit)) desk) := by
  have hp : p ∈ p :: above := List.mem_cons_self
  rw [makeAll, bind_onDesk, makeDirectory_onDesk]
  rcases desk.disk.makeDirectory_cases p with ⟨loc, hnew, hmake⟩ | ⟨e, hmake⟩
  · rw [hmake]
    exact .of_made hp hnew
  · rw [hmake]
    dsimp only
    by_cases he : e = .notFound
    · rw [if_pos he, bind_onDesk]
      have habove := habove.mono (List.subset_cons_self p above)
      generalize (makeAll above : OnDesk (Except FileError Unit)) desk = result at habove
      obtain ⟨e' | ⟨⟩, desk'⟩ := result
      · exact .of_error habove
      · obtain ⟨hadds, hdirectory⟩ := makes_makeUnlessThere hp desk'
        exact ⟨habove.trans hadds, hdirectory⟩
    · rw [if_neg he]
      exact .of_unlessThere e

theorem adds_makeAll (ps : List Path) (desk : Desk) :
    desk.disk.Adds ps ((makeAll ps : OnDesk (Except FileError Unit)) desk).2.disk := by
  induction ps with
  | nil => exact .refl _ _
  | cons p above ih => exact (makes_makeAll_cons desk ih).1

/-- New directories are where the path leads and where the paths above it do. -/
theorem adds_makeDirectories (p : Path) (desk : Desk) :
    desk.disk.Adds p.ancestors
      ((makeDirectories p : OnDesk (Except FileError Unit)) desk).2.disk :=
  adds_makeAll p.ancestors desk

/-- Making the directories on a path makes directories and nothing else, and unless it fails there
is one at the path afterwards, if there is a name on it. -/
theorem makeDirectories_spec {p : Path} {desk desk' : Desk} {r : Except FileError Unit}
    (h : (makeDirectories p : OnDesk (Except FileError Unit)) desk = (r, desk')) :
    desk.disk.Extends desk'.disk ∧ (r = .ok () → desk'.disk.Present p) := by
  have hadds := adds_makeDirectories p desk
  rw [h] at hadds
  refine ⟨hadds.toExtends, fun hok => ?_⟩
  by_cases hname : p.ancestors = []
  · exact .inl (Path.ancestors_eq_nil_iff.mp hname)
  · obtain ⟨above, habove⟩ := List.head?_eq_some_iff.mp (Path.head?_ancestors hname)
    have hmakes := makes_makeAll_cons (p := p) desk (adds_makeAll above desk)
    rw [← habove, ← makeDirectories, h] at hmakes
    exact .inr (hmakes.2 hok)

/-- Nothing changes where there is a directory. -/
theorem makeDirectories_of_present {p : Path} {desk : Desk} (h : desk.disk.Present p) :
    (makeDirectories p : OnDesk (Except FileError Unit)) desk = (.ok (), desk) := by
  rw [makeDirectories]
  by_cases hname : p.ancestors = []
  · rw [hname]
    rfl
  · have hdirectory := h.resolve_left (mt Path.ancestors_eq_nil_iff.mpr hname)
    obtain ⟨above, habove⟩ := List.head?_eq_some_iff.mp (Path.head?_ancestors hname)
    rw [habove, makeAll, bind_onDesk, makeDirectory_onDesk,
      Disk.makeDirectory_of_isDirectory hdirectory]
    dsimp only
    rw [if_neg (by decide), unlessThere_onDesk, if_pos ⟨rfl, hdirectory⟩]

end MakeDirectories

end LayoutCompiler.Files
