import LayoutCompiler.Files.Disk
import Mathlib.Data.List.Basic

/-
Files on a disk. What stands at a location and what is found there change only where
something is put. A file that is stored changes for all its names
(`find?_store_of_sameFile`) and for nothing else (`find?_store_of_not_sameFile`), and which
names are those of one file stays as it is (`sameFile_store`).
-/

namespace LayoutCompiler.Files

namespace Disk

variable {d : Disk} {loc loc' : Location} {content : List UInt8}

/-! ### Nodes and entries -/

theorem node?_root (d : Disk) : d.node? [] = some .directory :=
  if_pos rfl

theorem find?_root (d : Disk) : d.find? [] = some .directory := by
  rw [find?, node?_root]
  rfl

theorem find?_eq_directory : d.find? loc = some .directory ↔ d.node? loc = some .directory := by
  unfold find?
  rcases d.node? loc with _ | _ | _ | _ <;> simp [found?]

theorem find?_eq_file :
    d.find? loc = some (.file content) ↔
      ∃ number, d.node? loc = some (.file number) ∧ d.contents number = content := by
  unfold find?
  rcases d.node? loc with _ | _ | _ | _ <;> simp [found?]

theorem lookup_filter_ne (nodes : List (Location × Node)) (h : loc' ≠ loc) :
    (nodes.filter fun n => n.1 ≠ loc).lookup loc' = nodes.lookup loc' := by
  induction nodes with
  | nil => rfl
  | cons n nodes ih =>
    by_cases hn : n.1 = loc
    · have hne : (loc' == n.1) = false := beq_eq_false_iff_ne.mpr (hn ▸ h)
      rw [List.filter_cons_of_neg (by simp [hn]), ih, List.lookup_cons, hne]
    · rw [List.filter_cons_of_pos (by simp [hn]), List.lookup_cons, List.lookup_cons, ih]

theorem node?_put_self (hloc : loc ≠ []) (node : Node) :
    (d.put loc node).node? loc = some node := by
  rw [node?, if_neg hloc, put]
  exact List.lookup_cons_self

theorem node?_put_of_ne (h : loc' ≠ loc) (node : Node) :
    (d.put loc node).node? loc' = d.node? loc' := by
  unfold node?
  by_cases hroot : loc' = []
  · rw [if_pos hroot, if_pos hroot]
  · rw [if_neg hroot, if_neg hroot, put, List.lookup_cons, beq_eq_false_iff_ne.mpr h]
    exact lookup_filter_ne d.nodes h

theorem mem_nodes_of_node? {node : Node} (hloc : loc ≠ []) (h : d.node? loc = some node) :
    (loc, node) ∈ d.nodes := by
  rw [node?, if_neg hloc, List.lookup_eq_some_iff] at h
  obtain ⟨front, back, hnodes, -⟩ := h
  simp [hnodes]

/-- New numbers are new. -/
theorem lt_newNumber {number : Nat} (h : d.node? loc = some (.file number)) :
    number < d.newNumber := by
  have hloc : loc ≠ [] := by
    rintro rfl
    rw [node?_root] at h
    cases h
  have hmem := mem_nodes_of_node? hloc h
  unfold newNumber
  generalize d.nodes = nodes at hmem
  induction nodes with
  | nil => cases hmem
  | cons n nodes ih =>
    rw [List.foldr_cons]
    rcases List.mem_cons.mp hmem with rfl | hmem
    · exact Nat.lt_of_succ_le (Nat.le_max_left _ _)
    · exact Nat.lt_of_lt_of_le (ih hmem) (Nat.le_max_right _ _)

/-! ### Storing files -/

/-- The locations are those of one and the same file, if there is one. -/
def SameFile (d : Disk) (loc loc' : Location) : Prop :=
  loc' = loc ∨ ∃ number, d.node? loc = some (.file number) ∧ d.node? loc' = some (.file number)

theorem SameFile.refl (d : Disk) (loc : Location) : d.SameFile loc loc :=
  .inl rfl

theorem SameFile.symm (h : d.SameFile loc loc') : d.SameFile loc' loc :=
  h.imp Eq.symm fun ⟨number, hfile, hfile'⟩ => ⟨number, hfile', hfile⟩

/-- The file at the location, if there is one, has no other name. -/
def OnlyName (d : Disk) (loc : Location) : Prop :=
  ∀ loc', d.SameFile loc loc' → loc' = loc

/-- A file can be stored at the location: there is one already, or nothing. -/
def Takes (d : Disk) (loc : Location) : Prop :=
  d.node? loc = none ∨ ∃ number, d.node? loc = some (.file number)

theorem Takes.ne_directory (h : d.Takes loc) : d.find? loc ≠ some .directory := by
  rw [ne_eq, find?_eq_directory]
  rcases h with hnone | ⟨number, hfile⟩
  · simp [hnone]
  · simp [hfile]

theorem Takes.ne_nil (h : d.Takes loc) : loc ≠ [] := by
  rintro rfl
  exact h.ne_directory (find?_root d)

theorem store_of_file {number : Nat} (h : d.node? loc = some (.file number))
    (content : List UInt8) : d.store loc content = d.setContent number content := by
  rw [store, h]

theorem store_of_none (h : d.node? loc = none) (content : List UInt8) :
    d.store loc content =
      (d.put loc (.file d.newNumber)).setContent d.newNumber content := by
  rw [store, h]

/-- Storing a file changes nodes and contents only. -/
theorem exists_store_eq (d : Disk) (loc : Location) (content : List UInt8) :
    ∃ nodes contents, d.store loc content = { d with nodes, contents } := by
  unfold store
  split <;> exact ⟨_, _, rfl⟩

theorem node?_setContent (number : Nat) (content : List UInt8) :
    (d.setContent number content).node? loc = d.node? loc :=
  rfl

/-- Storing a file only changes what stands at its location. -/
theorem node?_store_of_ne (h : d.Takes loc) (hne : loc' ≠ loc) :
    (d.store loc content).node? loc' = d.node? loc' := by
  rcases h with hnone | ⟨number, hfile⟩
  · rw [store_of_none hnone, node?_setContent, node?_put_of_ne hne]
  · rw [store_of_file hfile, node?_setContent]

/-- Where a file is stored it keeps its number, and a new one has a number no other file has. -/
theorem node?_store_self (h : d.Takes loc) (content : List UInt8) :
    ∃ number, (d.store loc content).node? loc = some (.file number) ∧
      (d.node? loc = some (.file number) ∨
        d.node? loc = none ∧ ∀ loc', d.node? loc' ≠ some (.file number)) := by
  rcases h with hnone | ⟨number, hfile⟩
  · refine ⟨d.newNumber, ?_, .inr ⟨hnone, fun loc' hloc' => ?_⟩⟩
    · rw [store_of_none hnone, node?_setContent, node?_put_self (Takes.ne_nil (.inl hnone))]
    · exact Nat.lt_irrefl _ (lt_newNumber hloc')
  · exact ⟨number, by rw [store_of_file hfile, node?_setContent, hfile], .inl hfile⟩

/-- Storing a file neither makes two files one nor one file two. -/
theorem sameFile_store (h : d.Takes loc) {a b : Location} :
    (d.store loc content).SameFile a b ↔ d.SameFile a b := by
  obtain ⟨number, hself, hbefore⟩ := node?_store_self h content
  unfold SameFile
  by_cases ha : a = loc
  · subst ha
    by_cases hb : b = a
    · simp [hb]
    · rw [hself, node?_store_of_ne h hb]
      rcases hbefore with hfile | ⟨hnone, hnew⟩
      · rw [hfile]
      · simp [hnone, hnew b, hb]
  · by_cases hb : b = loc
    · subst hb
      rw [hself, node?_store_of_ne h ha]
      rcases hbefore with hfile | ⟨hnone, hnew⟩
      · rw [hfile]
      · simp [hnone, hnew a]
    · rw [node?_store_of_ne h ha, node?_store_of_ne h hb]

/-- A file changes for all its names. -/
theorem find?_store_of_sameFile (h : d.Takes loc) (hsame : d.SameFile loc loc') :
    (d.store loc content).find? loc' = some (.file content) := by
  rcases h with hnone | ⟨number, hfile⟩
  · rcases hsame with rfl | ⟨_, hfile, -⟩
    · rw [store_of_none hnone]
      refine find?_eq_file.mpr ⟨d.newNumber, ?_, if_pos rfl⟩
      exact node?_put_self (Takes.ne_nil (.inl hnone)) _
    · cases hnone.symm.trans hfile
  · have hfile' : d.node? loc' = some (.file number) := by
      rcases hsame with rfl | ⟨number', hnumber, hfile'⟩
      · exact hfile
      · rw [hfile'.trans (hnumber.symm.trans hfile)]
    rw [store_of_file hfile]
    exact find?_eq_file.mpr ⟨number, hfile', if_pos rfl⟩

theorem find?_store_self (h : d.Takes loc) :
    (d.store loc content).find? loc = some (.file content) :=
  find?_store_of_sameFile h (.refl d loc)

/-- Nothing else changes when a file is stored. -/
theorem find?_store_of_not_sameFile (h : d.Takes loc) (hother : ¬d.SameFile loc loc') :
    (d.store loc content).find? loc' = d.find? loc' := by
  have hne : loc' ≠ loc := fun heq => hother (.inl heq)
  obtain ⟨number, hself, hbefore⟩ := node?_store_self h content
  -- The number that gets a content is not that of what is at the other location.
  have hnumber : d.node? loc' ≠ some (.file number) := fun hfile => by
    rcases hbefore with hsame | ⟨-, hnew⟩
    · exact hother (.inr ⟨number, hsame, hfile⟩)
    · exact hnew loc' hfile
  have hcontents : ∀ n, n ≠ number → (d.store loc content).contents n = d.contents n := by
    intro n hn
    rcases h with hnone | ⟨number', hfile⟩
    · rw [store_of_none hnone, node?_setContent, node?_put_self (Takes.ne_nil (.inl hnone))]
        at hself
      cases hself
      rw [store_of_none hnone]
      exact if_neg hn
    · rw [store_of_file hfile, node?_setContent, hfile] at hself
      cases hself
      rw [store_of_file hfile]
      exact if_neg hn
  unfold find?
  rw [node?_store_of_ne h hne]
  rcases hnode : d.node? loc' with _ | _ | n | _
  · rfl
  · rfl
  · have hn : n ≠ number := fun heq => hnumber (heq ▸ hnode)
    simp [found?, hcontents n hn]
  · rfl

/-- The second disk has the same at a location as the first one. -/
def SameAt (d d' : Disk) (loc : Location) : Prop :=
  d'.node? loc = d.node? loc ∧ d'.find? loc = d.find? loc

theorem sameAt_store (h : d.Takes loc) (hother : ¬d.SameFile loc loc') (content : List UInt8) :
    d.SameAt (d.store loc content) loc' :=
  ⟨node?_store_of_ne h fun heq => hother (.inl heq), find?_store_of_not_sameFile h hother⟩

theorem takes_of_openAt (h : d.openAt loc = .ok ()) : d.Takes loc := by
  unfold openAt at h
  split at h
  case h_1 => cases h
  case h_2 => cases h
  case h_3 number hfile => exact .inr ⟨number, hfile⟩
  case h_4 hnone => exact .inl hnone

end Disk

end LayoutCompiler.Files
