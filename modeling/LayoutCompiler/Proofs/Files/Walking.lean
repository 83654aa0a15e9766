import LayoutCompiler.Proofs.Files.Path
import LayoutCompiler.Proofs.Files.Storing

/-
Following names on a disk. Where names lead is found step by step, and a link is followed
by its target and then the names that are left (`Walks`); names that lead somewhere can be
cut anywhere (`Walks.append`, `Walks.of_append`). All of this depends on the directories
and links alone, so it stays where these stay (`Walks.of_keeps`), and they do when files are
stored (`Keeps.store`).
-/

namespace LayoutCompiler.Files

namespace Disk

variable {d d' : Disk} {loc loc' : Location} {name : String} {content : List UInt8}

/-! ### Where names lead -/

theorem enter_eq_ok {step : Step} :
    d.enter loc name = .ok step ↔ d.find? loc = some .directory ∧
      (name = "" ∧ step = .place loc ∨
        name ≠ "" ∧ d.permit (loc ++ [name]) .reach = .ok () ∧ d.next loc name = .ok step) := by
  unfold enter
  rcases d.find? loc with _ | _ | _
  · simp
  · simp
  · by_cases hname : name = ""
    · simp [hname, eq_comm]
    · cases d.permit (loc ++ [name]) .reach <;> simp [hname, bind, Except.bind]

theorem directory_of_enter {step : Step} (h : d.enter loc name = .ok step) :
    d.find? loc = some .directory :=
  (enter_eq_ok.mp h).1

/-- A slash at the end asks for a directory. -/
theorem enter_slash {step : Step} :
    d.enter loc "" = .ok step ↔ d.find? loc = some .directory ∧ step = .place loc := by
  simp [enter_eq_ok]

/-- A single dot leads nowhere else. -/
theorem enter_dot {step : Step} :
    d.enter loc "." = .ok step ↔ d.find? loc = some .directory ∧
      d.permit (loc ++ ["."]) .reach = .ok () ∧ step = .place loc := by
  rw [enter_eq_ok]
  simp [next, eq_comm (a := step)]

/-- There is no symbolic link at the location. -/
def NoLinkAt (d : Disk) (loc : Location) : Prop :=
  ∀ target, d.node? loc ≠ some (.link target)

theorem next_name (h : IsName name) (hlink : d.NoLinkAt (loc ++ [name])) :
    d.next loc name = .ok (.place (loc ++ [name])) := by
  rw [next, if_neg h.noDot, if_neg h.noDots, if_neg (Nat.not_lt.mpr h.short)]
  split
  case h_1 target htarget => exact absurd htarget (hlink target)
  case h_2 => rfl
  case h_3 => rfl
  case h_4 => rfl

theorem next_eq_place {inner : Location} (h : d.next loc name = .ok (.place inner)) :
    inner = loc ∧ name = "." ∨ inner = loc.dropLast ∧ name = ".." ∨
      inner = loc ++ [name] ∧ name ≠ "." ∧ name ≠ ".." ∧ name.utf8ByteSize ≤ maxName ∧
        d.NoLinkAt inner := by
  unfold next at h
  split at h
  case isTrue hdot =>
    cases h
    exact .inl ⟨rfl, hdot⟩
  case isFalse hdot =>
    split at h
    case isTrue hdots =>
      cases h
      exact .inr (.inl ⟨rfl, hdots⟩)
    case isFalse hdots =>
      split at h
      case isTrue => cases h
      case isFalse hshort =>
        have hlink : d.NoLinkAt (loc ++ [name]) := fun target htarget => by
          rw [htarget] at h
          cases h
        split at h
        case h_1 => cases h
        all_goals
          cases h
          exact .inr (.inr ⟨rfl, hdot, hdots, Nat.le_of_not_lt hshort, hlink⟩)

theorem next_eq_link {target : Path} (h : d.next loc name = .ok (.link target)) :
    d.node? (loc ++ [name]) = some (.link target) ∧
      name ≠ "." ∧ name ≠ ".." ∧ name.utf8ByteSize ≤ maxName := by
  unfold next at h
  split at h
  case isTrue => cases h
  case isFalse hdot =>
    split at h
    case isTrue => cases h
    case isFalse hdots =>
      split at h
      case isTrue => cases h
      case isFalse hshort =>
        split at h
        case h_1 target' htarget =>
          cases h
          exact ⟨htarget, hdot, hdots, Nat.le_of_not_lt hshort⟩
        all_goals cases h

/-- A link is followed for a name, and that is no slash or dots. -/
theorem enter_eq_link {target : Path} (h : d.enter loc name = .ok (.link target)) :
    d.node? (loc ++ [name]) = some (.link target) ∧
      name ≠ "." ∧ name ≠ ".." ∧ name.utf8ByteSize ≤ maxName := by
  obtain ⟨-, ⟨-, hsame⟩ | ⟨-, -, hnext⟩⟩ := enter_eq_ok.mp h
  · cases hsame
  · exact next_eq_link hnext

/-- Names lead from a location to another one, with at most the first and exactly the second number
of links left to be followed. -/
inductive Walks (d : Disk) : Nat → Location → List String → Location → Nat → Prop where
  | done {n : Nat} {loc : Location} : Walks d n loc [] loc n
  | step {n m : Nat} {loc inner loc' : Location} {name : String} {names : List String} :
      d.enter loc name = .ok (.place inner) → Walks d n inner names loc' m →
        Walks d n loc (name :: names) loc' m
  | link {n m : Nat} {loc loc' : Location} {name : String} {names : List String} {target : Path} :
      d.enter loc name = .ok (.link target) →
        Walks d n (start loc target) (route target ++ names) loc' m →
        Walks d (n + 1) loc (name :: names) loc' m

section Walking

variable {n m : Nat} {names rest : List String}

theorem walk_nil : d.walk n loc [] = .ok (loc, n) := by
  rw [walk]
  rfl

theorem walk_cons_place {inner : Location} (h : d.enter loc name = .ok (.place inner)) :
    d.walk n loc (name :: names) = d.walk n inner names := by
  rw [walk.eq_def, stretch, h, walk.eq_def d n inner]

theorem walk_cons_link {target : Path} (h : d.enter loc name = .ok (.link target)) :
    d.walk (n + 1) loc (name :: names) = d.walk n (start loc target) (route target ++ names) := by
  rw [walk.eq_def, stretch, h]

theorem walk_cons_link_zero {target : Path} (h : d.enter loc name = .ok (.link target)) :
    d.walk 0 loc (name :: names) = .error .tooManyLinks := by
  rw [walk.eq_def, stretch, h]

theorem walk_cons_error {x : FileError} (h : d.enter loc name = .error x) :
    d.walk n loc (name :: names) = .error x := by
  rw [walk.eq_def, stretch, h]

theorem walks_of_walk (h : d.walk n loc names = .ok (loc', m)) : Walks d n loc names loc' m := by
  induction n generalizing loc names with
  | zero =>
    induction names generalizing loc with
    | nil =>
      cases walk_nil.symm.trans h
      exact .done
    | cons name names ih =>
      rcases hstep : d.enter loc name with x | inner | target
      · cases (walk_cons_error hstep).symm.trans h
      · exact .step hstep (ih ((walk_cons_place hstep).symm.trans h))
      · cases (walk_cons_link_zero hstep).symm.trans h
  | succ n ihLinks =>
    induction names generalizing loc with
    | nil =>
      cases walk_nil.symm.trans h
      exact .done
    | cons name names ih =>
      rcases hstep : d.enter loc name with x | inner | target
      · cases (walk_cons_error hstep).symm.trans h
      · exact .step hstep (ih ((walk_cons_place hstep).symm.trans h))
      · exact .link hstep (ihLinks ((walk_cons_link hstep).symm.trans h))

namespace Walks

/-- What follows names that lead somewhere is followed from there. -/
theorem walk_append (h : Walks d n loc names loc' m) (rest : List String) :
    d.walk n loc (names ++ rest) = d.walk m loc' rest := by
  induction h with
  | done => rfl
  | step hstep _ ih => exact (walk_cons_place hstep).trans ih
  | link hstep _ ih =>
    rw [List.append_assoc] at ih
    exact (walk_cons_link hstep).trans ih

theorem walk_eq (h : Walks d n loc names loc' m) : d.walk n loc names = .ok (loc', m) := by
  rw [← List.append_nil names, h.walk_append, walk_nil]

theorem append {loc'' : Location} {k : Nat} (h : Walks d n loc names loc' m)
    (hrest : Walks d m loc' rest loc'' k) : Walks d n loc (names ++ rest) loc'' k :=
  walks_of_walk ((h.walk_append rest).trans hrest.walk_eq)

/-- Names that lead somewhere do so step by step. -/
theorem split {k : Nat} {all : List String} (h : Walks d n loc all loc' k) :
    ∀ names rest, all = names ++ rest →
      ∃ inner m, Walks d n loc names inner m ∧ Walks d m inner rest loc' k := by
  induction h with
  | @done n loc =>
    intro names rest hall
    obtain ⟨rfl, rfl⟩ := List.append_eq_nil_iff.mp hall.symm
    exact ⟨loc, n, .done, .done⟩
  | @step n m loc inner loc' name later hstep hlater ih =>
    intro names rest hall
    rcases List.cons_eq_append_iff.mp hall with ⟨rfl, rfl⟩ | ⟨names, rfl, hlist⟩
    · exact ⟨loc, n, .done, .step hstep hlater⟩
    · obtain ⟨middle, k, hnames, hrest⟩ := ih names rest hlist
      exact ⟨middle, k, .step hstep hnames, hrest⟩
  | @link n m loc loc' name later target hstep hlater ih =>
    intro names rest hall
    rcases List.cons_eq_append_iff.mp hall with ⟨rfl, rfl⟩ | ⟨names, rfl, hlist⟩
    · exact ⟨loc, n + 1, .done, .link hstep hlater⟩
    · obtain ⟨middle, k, hnames, hrest⟩ :=
        ih (route target ++ names) rest (by rw [hlist, List.append_assoc])
      exact ⟨middle, k, .link hstep hnames, hrest⟩

theorem of_append (h : Walks d n loc (names ++ rest) loc' m) :
    ∃ inner k, Walks d n loc names inner k ∧ Walks d k inner rest loc' m :=
  h.split names rest rfl

/-- Single dots lead nowhere else. -/
theorem eq_of_dots {k : Nat} (h : Walks d n loc (List.replicate k ".") loc' m) : loc' = loc := by
  induction k generalizing loc n with
  | zero =>
    cases h
    rfl
  | succ k ih =>
    cases h with
    | step hstep hrest =>
      obtain ⟨-, -, hto⟩ := enter_dot.mp hstep
      cases hto
      exact ih hrest
    | link hstep => cases (enter_dot.mp hstep).2.2

/-- Names that lead from somewhere to a directory start in one. -/
theorem directory (h : Walks d n loc names loc' m) (hdirectory : d.find? loc' = some .directory) :
    d.find? loc = some .directory := by
  cases h with
  | done => exact hdirectory
  | step hstep => exact directory_of_enter hstep
  | link hstep => exact directory_of_enter hstep

end Walks

end Walking

/-! ### What stays -/

/-- The second disk has the directories and links of the first one, and no files that were one are
two, or two one. -/
structure Keeps (d d' : Disk) : Prop where
  working : d'.working = d.working
  refusal : d'.refusal? = d.refusal?
  limit : d'.limit? = d.limit?
  directories : ∀ loc, d.find? loc = some .directory → d'.find? loc = some .directory
  links : ∀ loc target, d'.node? loc = some (.link target) ↔ d.node? loc = some (.link target)
  files : ∀ loc loc', d'.SameFile loc loc' ↔ d.SameFile loc loc'

namespace Keeps

variable {d'' : Disk}

theorem refl (d : Disk) : Keeps d d :=
  ⟨rfl, rfl, rfl, fun _ h => h, fun _ _ => .rfl, fun _ _ => .rfl⟩

theorem trans (h : Keeps d d') (h' : Keeps d' d'') : Keeps d d'' where
  working := h'.working.trans h.working
  refusal := h'.refusal.trans h.refusal
  limit := h'.limit.trans h.limit
  directories loc hdirectory := h'.directories loc (h.directories loc hdirectory)
  links loc target := (h'.links loc target).trans (h.links loc target)
  files loc loc' := (h'.files loc loc').trans (h.files loc loc')

/-- Files can be stored without losing directories or links. -/
theorem store (h : d.Takes loc) (content : List UInt8) : Keeps d (d.store loc content) where
  working := by
    obtain ⟨_, _, hstore⟩ := d.exists_store_eq loc content
    rw [hstore]
  refusal := by
    obtain ⟨_, _, hstore⟩ := d.exists_store_eq loc content
    rw [hstore]
  limit := by
    obtain ⟨_, _, hstore⟩ := d.exists_store_eq loc content
    rw [hstore]
  directories loc' hdirectory := by
    rw [find?_eq_directory] at hdirectory ⊢
    have hne : loc' ≠ loc := by
      rintro rfl
      rw [Takes, hdirectory] at h
      simp at h
    rw [node?_store_of_ne h hne, hdirectory]
  links loc' target := by
    by_cases hne : loc' = loc
    · subst hne
      obtain ⟨number, hself, -⟩ := node?_store_self h content
      rw [hself]
      rw [Takes] at h
      rcases h with hnone | ⟨number', hfile⟩
      · simp [hnone]
      · simp [hfile]
    · rw [node?_store_of_ne h hne]
  files _ _ := sameFile_store h

theorem permit (h : Keeps d d') (loc : Location) (use : Use) :
    d'.permit loc use = d.permit loc use := by
  rw [Disk.permit, Disk.permit, h.refusal]

theorem next (h : Keeps d d') (loc : Location) (name : String) :
    d'.next loc name = d.next loc name := by
  have hlinks := h.links (loc ++ [name])
  unfold Disk.next
  split
  · rfl
  · split
    · rfl
    · split
      · rfl
      · rcases hnode : d.node? (loc ++ [name]) with _ | _ | _ | target
        all_goals
          rcases hnode' : d'.node? (loc ++ [name]) with _ | _ | _ | target'
          all_goals simp_all

theorem enter (h : Keeps d d') {step : Step} (hstep : d.enter loc name = .ok step) :
    d'.enter loc name = .ok step := by
  rw [enter_eq_ok] at hstep ⊢
  rw [h.permit, h.next]
  exact ⟨h.directories loc hstep.1, hstep.2⟩

end Keeps

theorem Walks.of_keeps {n m : Nat} {names : List String} (hkeeps : Keeps d d')
    (h : Walks d n loc names loc' m) : Walks d' n loc names loc' m := by
  induction h with
  | done => exact .done
  | step hstep _ ih => exact .step (hkeeps.enter hstep) ih
  | link hstep _ ih => exact .link (hkeeps.enter hstep) ih

end Disk

end LayoutCompiler.Files
