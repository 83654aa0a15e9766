import LayoutCompiler.Files.Disk
import Mathlib.Data.List.Basic

/-
Paths of what is directly inside a directory. Joining the path of a directory and a name
gives a path with one name more (`names_join`), whose last name is that name and whose
parent leads to where the directory is, although it may be spelled in another way
(`parent?_join`): without slashes at its end and without single dots there.
-/

namespace LayoutCompiler.Files

/-- What can be the name of something on a disk. -/
structure IsName (name : String) : Prop where
  nonempty : name ≠ ""
  noDot : name ≠ "."
  noDots : name ≠ ".."
  noSlash : '/' ∉ name.toList
  noNul : '\x00' ∉ name.toList
  short : name.utf8ByteSize ≤ Disk.maxName

theorem isName_iff {name : String} :
    IsName name ↔ name ≠ "" ∧ name ≠ "." ∧ name ≠ ".." ∧ '/' ∉ name.toList ∧
      '\x00' ∉ name.toList ∧ name.utf8ByteSize ≤ Disk.maxName :=
  ⟨fun ⟨h₁, h₂, h₃, h₄, h₅, h₆⟩ => ⟨h₁, h₂, h₃, h₄, h₅, h₆⟩,
    fun ⟨h₁, h₂, h₃, h₄, h₅, h₆⟩ => ⟨h₁, h₂, h₃, h₄, h₅, h₆⟩⟩

instance (name : String) : Decidable (IsName name) :=
  decidable_of_iff _ isName_iff.symm

theorem ne_slash_of_noSlash {name : String} (h : '/' ∉ name.toList) :
    ∀ c ∈ name.toList.reverse, decide (c ≠ '/') = true := fun _ hc =>
  decide_eq_true fun heq => h (heq ▸ List.mem_reverse.mp hc)

namespace Path

/-! ### Names on a path -/

/-- The names between the slashes of a text. -/
def namesIn (cs : List Char) : List String :=
  ((cs.splitOn '/').filter fun cs => !cs.isEmpty).map String.ofList

theorem names_eq (p : Path) : p.names = namesIn p.text.toList :=
  rfl

theorem namesIn_append_slash (front back : List Char) :
    namesIn (front ++ '/' :: back) = namesIn front ++ namesIn back := by
  simp [namesIn, List.splitOn_append_cons_self]

theorem namesIn_of_noSlash {cs : List Char} (hslash : '/' ∉ cs) (hcs : cs ≠ []) :
    namesIn cs = [String.ofList cs] := by
  simp [namesIn, List.splitOn_eq_singleton hslash, hcs]

theorem namesIn_slash (front : List Char) : namesIn (front ++ ['/']) = namesIn front := by
  rw [namesIn_append_slash]
  exact List.append_nil _

theorem namesIn_name {name : String} (hnonempty : name ≠ "") (hslash : '/' ∉ name.toList) :
    namesIn name.toList = [name] := by
  rw [namesIn_of_noSlash hslash (mt String.toList_eq_nil_iff.mp hnonempty), String.ofList_toList]

theorem mem_splitOn {c : Char} {cs part : List Char} (h : part ∈ cs.splitOn c) :
    c ∉ part ∧ ∀ a ∈ part, a ∈ cs := by
  induction cs generalizing part with
  | nil =>
    rw [List.splitOn_nil, List.mem_singleton] at h
    simp [h]
  | cons first rest ih =>
    rw [List.splitOn_cons_eq_if_modifyHead] at h
    split at h
    case isTrue =>
      rcases List.mem_cons.mp h with rfl | h
      · simp
      · exact ⟨(ih h).1, fun a ha => List.mem_cons_of_mem _ ((ih h).2 a ha)⟩
    case isFalse hfirst =>
      obtain ⟨head, parts, hparts⟩ := List.exists_cons_of_ne_nil (List.splitOn_ne_nil c rest)
      rw [hparts] at h ih
      rcases List.mem_cons.mp h with rfl | h
      · obtain ⟨hhead, hmem⟩ := ih List.mem_cons_self
        have hne : c ≠ first := fun heq => hfirst (by simp [heq])
        exact ⟨by simp [hne, hhead], List.forall_mem_cons.mpr
          ⟨List.mem_cons_self, fun a ha => List.mem_cons_of_mem _ (hmem a ha)⟩⟩
      · obtain ⟨hpart, hmem⟩ := ih (List.mem_cons_of_mem _ h)
        exact ⟨hpart, fun a ha => List.mem_cons_of_mem _ (hmem a ha)⟩

/-- A name on a path is a name, unless it is too long or a single or double dot. -/
theorem isName_of_mem_names {p : Path} {name : String} (h : name ∈ p.names)
    (hnul : '\x00' ∉ p.text.toList) (hdot : name ≠ ".") (hdots : name ≠ "..")
    (hshort : name.utf8ByteSize ≤ Disk.maxName) : IsName name := by
  obtain ⟨cs, hcs, rfl⟩ := List.mem_map.mp h
  obtain ⟨hpart, hnonempty⟩ := List.mem_filter.mp hcs
  obtain ⟨hslash, hmem⟩ := mem_splitOn hpart
  refine ⟨?_, hdot, hdots, by rwa [String.toList_ofList], ?_, hshort⟩
  · intro hempty
    rw [← String.toList_eq_nil_iff, String.toList_ofList] at hempty
    simp [hempty] at hnonempty
  · rw [String.toList_ofList]
    exact fun hchar => hnul (hmem _ hchar)

/-! ### The end of a path -/

/-- What does not matter at the end of a path are slashes and single dots. -/
theorem namesIn_dropIdleEnd (cs : List Char) :
    ∃ n, namesIn cs.reverse = namesIn (dropIdleEnd cs).reverse ++ List.replicate n "." := by
  fun_induction dropIdleEnd cs with
  | case1 cs ih =>
    obtain ⟨n, hn⟩ := ih
    exact ⟨n, by rw [List.reverse_cons, namesIn_slash, hn]⟩
  | case2 cs ih =>
    obtain ⟨n, hn⟩ := ih
    refine ⟨n + 1, ?_⟩
    have hdot : ('.' :: '/' :: cs).reverse = cs.reverse ++ '/' :: ['.'] := by simp
    rw [hdot, namesIn_append_slash, hn, List.append_assoc, List.replicate_succ']
    rfl
  | case3 cs => exact ⟨0, (List.append_nil _).symm⟩

theorem dropIdleEnd_suffix (cs : List Char) : dropIdleEnd cs <:+ cs := by
  fun_induction dropIdleEnd cs with
  | case1 cs ih => exact ih.trans (List.suffix_cons _ _)
  | case2 cs ih => exact ih.trans ((List.suffix_cons _ _).trans (List.suffix_cons _ _))
  | case3 cs => exact List.suffix_rfl

theorem mem_of_dropIdleEnd_eq_nil {cs : List Char} (h : dropIdleEnd cs = []) :
    ∀ c ∈ cs, c = '/' ∨ c = '.' := by
  fun_induction dropIdleEnd cs with
  | case1 cs ih => exact List.forall_mem_cons.mpr ⟨.inl rfl, ih h⟩
  | case2 cs ih =>
    exact List.forall_mem_cons.mpr ⟨.inr rfl, List.forall_mem_cons.mpr ⟨.inl rfl, ih h⟩⟩
  | case3 cs => simp [h]

theorem getLast?_of_dropIdleEnd_eq_nil {cs : List Char} (h : dropIdleEnd cs = []) :
    cs = [] ∨ cs.getLast? = some '/' := by
  fun_induction dropIdleEnd cs with
  | case1 cs ih =>
    rcases ih h with rfl | hlast
    · exact .inr rfl
    · exact .inr (by simp [List.getLast?_cons, hlast])
  | case2 cs ih =>
    rcases ih h with rfl | hlast
    · exact .inr rfl
    · exact .inr (by simp [List.getLast?_cons, hlast])
  | case3 cs => exact .inl h

/-- A path without a name is that of the root, or empty. -/
theorem isAbsolute_or_empty {p : Path} (h : p.upToName = []) :
    p.isAbsolute = true ∨ p.text = "" := by
  rcases getLast?_of_dropIdleEnd_eq_nil h with hnil | hlast
  · exact .inr (String.toList_eq_nil_iff.mp (List.reverse_eq_nil_iff.mp hnil))
  · rw [List.getLast?_reverse] at hlast
    exact .inl (by rw [isAbsolute, hlast]; rfl)

/-- A path without what does not matter at its end. -/
def tidy (p : Path) : Path :=
  match p.upToName with
  | [] => ⟨if p.isAbsolute then "/" else ""⟩
  | cs => ⟨String.ofList cs.reverse⟩

theorem isAbsolute_iff {p : Path} : p.isAbsolute = true ↔ ∃ cs, p.text.toList = '/' :: cs := by
  unfold isAbsolute
  cases p.text.toList with
  | nil => simp
  | cons c cs => simp

theorem tidy_of_upToName_eq_nil {p : Path} (h : p.upToName = []) :
    p.tidy = ⟨if p.isAbsolute then "/" else ""⟩ := by
  rw [tidy, h]

theorem tidy_of_upToName_ne_nil {p : Path} (h : p.upToName ≠ []) :
    p.tidy = ⟨String.ofList p.upToName.reverse⟩ := by
  unfold tidy
  split
  case h_1 hnil => exact absurd hnil h
  case h_2 => rfl

/-- The path starts with its tidy form. -/
theorem text_eq_tidy_append (p : Path) : ∃ rest, p.text = p.tidy.text ++ rest := by
  by_cases h : p.upToName = []
  · rw [tidy_of_upToName_eq_nil h]
    by_cases habsolute : p.isAbsolute = true
    · obtain ⟨cs, hcs⟩ := isAbsolute_iff.mp habsolute
      exact ⟨String.ofList cs, String.ext (by simp [habsolute, hcs])⟩
    · exact ⟨p.text, String.ext (by simp [habsolute])⟩
  · rw [tidy_of_upToName_ne_nil h]
    obtain ⟨front, hfront⟩ := dropIdleEnd_suffix p.text.toList.reverse
    refine ⟨String.ofList front.reverse, String.ext ?_⟩
    rw [String.toList_append, String.toList_ofList, String.toList_ofList, ← List.reverse_append,
      upToName, hfront, List.reverse_reverse]

theorem names_tidy (p : Path) :
    ∃ n, p.names = p.tidy.names ++ List.replicate n "." := by
  obtain ⟨n, hn⟩ := namesIn_dropIdleEnd p.text.toList.reverse
  rw [List.reverse_reverse, ← upToName] at hn
  refine ⟨n, ?_⟩
  rw [names_eq, names_eq, hn]
  by_cases h : p.upToName = []
  · rw [tidy_of_upToName_eq_nil h, h]
    split <;> rfl
  · rw [tidy_of_upToName_ne_nil h, String.toList_ofList]

theorem isAbsolute_tidy (p : Path) : p.tidy.isAbsolute = p.isAbsolute := by
  by_cases h : p.upToName = []
  · rw [tidy_of_upToName_eq_nil h]
    cases habsolute : p.isAbsolute <;> simp [isAbsolute]
  · rw [tidy_of_upToName_ne_nil h]
    obtain ⟨front, hfront⟩ := dropIdleEnd_suffix p.text.toList.reverse
    have htext : p.text.toList = p.upToName.reverse ++ front.reverse := by
      rw [← List.reverse_append, upToName, hfront, List.reverse_reverse]
    rw [isAbsolute, isAbsolute, htext, String.toList_ofList,
      List.head?_append_of_ne_nil _ (List.reverse_ne_nil_iff.mpr h)]

theorem parent?_eq_none_iff {p : Path} : p.parent? = none ↔ p.upToName = [] := by
  unfold parent?
  split
  case h_1 hnil => exact iff_of_true rfl hnil
  case h_2 hne =>
    refine iff_of_false ?_ hne
    split <;> simp

/-- The path above a path, if there is a name on it, is what comes before a slash. -/
theorem exists_of_parent? {p above : Path} (h : p.parent? = some above)
    (hname : above.upToName ≠ []) :
    ∃ name front, p.upToName = name ++ '/' :: front ∧ dropIdleEnd ('/' :: front) ≠ [] ∧
      above.text.toList = (dropIdleEnd ('/' :: front)).reverse := by
  unfold parent? at h
  split at h
  case h_1 => cases h
  case h_2 =>
    split at h
    case h_1 =>
      -- What is above is the root or the empty path, and these have no name on them.
      obtain rfl := Option.some.inj h
      refine absurd ?_ hname
      cases p.isAbsolute <;> rfl
    case h_2 hrest =>
      obtain rfl := Option.some.inj h
      obtain ⟨c, front, hfront⟩ : ∃ c front,
          p.upToName.dropWhile (fun c => decide (c ≠ '/')) = c :: front :=
        List.exists_cons_of_ne_nil fun hnil => hrest (by rw [hnil]; rfl)
      obtain rfl : c = '/' := by
        have hslash := List.head?_dropWhile_not (fun c => decide (c ≠ '/')) p.upToName
        rw [hfront] at hslash
        simpa using hslash
      refine ⟨p.upToName.takeWhile (fun c => decide (c ≠ '/')), front, ?_, ?_, ?_⟩
      · rw [← hfront, List.takeWhile_append_dropWhile]
      · rwa [hfront] at hrest
      · rw [hfront, String.toList_ofList]

/-- A path starts with the path above it, and with the names on that. -/
theorem text_eq_parent_append {p above : Path} (h : p.parent? = some above)
    (hname : above.upToName ≠ []) :
    above.text ≠ "" ∧ (∃ rest, p.text = above.text ++ rest) ∧
      ∃ names, p.names = above.names ++ names := by
  obtain ⟨name, front, hup, hrest, habove⟩ := exists_of_parent? h hname
  refine ⟨?_, ?_, ?_⟩
  · rw [ne_eq, ← String.toList_eq_nil_iff, habove, List.reverse_eq_nil_iff]
    exact hrest
  · obtain ⟨back, hback⟩ := ((dropIdleEnd_suffix ('/' :: front)).trans
      ⟨name, hup.symm⟩).trans (dropIdleEnd_suffix p.text.toList.reverse)
    refine ⟨String.ofList back.reverse, String.ext ?_⟩
    rw [String.toList_append, String.toList_ofList, habove, ← List.reverse_append, hback,
      List.reverse_reverse]
  · obtain ⟨n, hnames⟩ := namesIn_dropIdleEnd p.text.toList.reverse
    obtain ⟨n', hfront⟩ := namesIn_dropIdleEnd ('/' :: front)
    rw [List.reverse_cons, namesIn_slash] at hfront
    refine ⟨List.replicate n' "." ++ (namesIn name.reverse ++ List.replicate n "."), ?_⟩
    rw [List.reverse_reverse, ← upToName, hup, List.reverse_append, List.reverse_cons,
      List.append_assoc, List.singleton_append, namesIn_append_slash, hfront] at hnames
    rw [names_eq, names_eq, habove, hnames, List.append_assoc, List.append_assoc]

/-- A path has no paths above it, itself included, if and only if there is no name on it. -/
theorem ancestors_eq_nil_iff {p : Path} : p.ancestors = [] ↔ p.upToName = [] := by
  unfold ancestors
  cases hlength : p.text.length with
  | zero =>
    have hempty : p.text.toList = [] := List.eq_nil_of_length_eq_zero (by simpa using hlength)
    exact iff_of_true rfl (by rw [upToName, hempty]; rfl)
  | succ n =>
    rw [ancestorsWithin, ← parent?_eq_none_iff]
    cases p.parent? <;> simp

theorem head?_ancestors {p : Path} (h : p.ancestors ≠ []) : p.ancestors.head? = some p := by
  unfold ancestors at h ⊢
  cases hlength : p.text.length with
  | zero => exact absurd (by rw [hlength]; rfl) h
  | succ n =>
    rw [hlength] at h
    rw [ancestorsWithin] at h ⊢
    split
    case h_1 hnone => exact absurd (by rw [hnone]) h
    case h_2 => rfl

theorem upToName_tidy (p : Path) (h : p.upToName = []) : p.tidy.upToName = [] := by
  rw [tidy_of_upToName_eq_nil h]
  split <;> rfl

/-! ### Joining a directory and a name -/

theorem toList_join (p : Path) (name : String) :
    (p.text.toList = [] ∧ (p.join name).text.toList = name.toList) ∨
      (p.text.toList ≠ [] ∧ (p.join name).text.toList = p.text.toList ++ '/' :: name.toList) ∨
      ∃ front, p.text.toList = front ++ ['/'] ∧
        (p.join name).text.toList = front ++ '/' :: name.toList := by
  unfold join
  by_cases hempty : p.text.toList = []
  · obtain hempty := String.toList_eq_nil_iff.mp hempty
    exact .inl (by simp [hempty])
  · have hempty' : p.text.isEmpty = false := by
      rw [← Bool.not_eq_true, String.isEmpty_iff, ← String.toList_eq_nil_iff]
      exact hempty
    by_cases hslash : p.text.toList.getLast? = some '/'
    · obtain ⟨front, hfront⟩ := List.getLast?_eq_some_iff.mp hslash
      exact .inr (.inr ⟨front, hfront, by simp [hempty', hfront]⟩)
    · exact .inr (.inl ⟨hempty, by simp [hempty', hslash]⟩)

section Join

variable {p : Path} {name : String}

theorem names_join_of_noSlash (hnonempty : name ≠ "") (hslash : '/' ∉ name.toList) :
    (p.join name).names = p.names ++ [name] := by
  have hname := namesIn_name hnonempty hslash
  rw [names_eq, names_eq]
  rcases toList_join p name with ⟨hp, hjoin⟩ | ⟨-, hjoin⟩ | ⟨front, hp, hjoin⟩
  · rw [hjoin, hp, hname]
    rfl
  · rw [hjoin, namesIn_append_slash, hname]
  · rw [hjoin, hp, namesIn_append_slash, namesIn_slash, hname]

theorem names_join (h : IsName name) : (p.join name).names = p.names ++ [name] :=
  names_join_of_noSlash h.nonempty h.noSlash

theorem isAbsolute_join_of_noSlash (hslash : '/' ∉ name.toList) :
    (p.join name).isAbsolute = p.isAbsolute := by
  unfold isAbsolute
  rcases toList_join p name with ⟨hp, hjoin⟩ | ⟨hp, hjoin⟩ | ⟨front, hp, hjoin⟩
  · have hhead : name.toList.head? ≠ some '/' := fun hhead =>
      hslash (List.mem_of_head? hhead)
    simp [hjoin, hp, hhead]
  · rw [hjoin, List.head?_append_of_ne_nil _ hp]
  · rw [hjoin, hp]
    cases front <;> rfl

theorem isAbsolute_join (h : IsName name) : (p.join name).isAbsolute = p.isAbsolute :=
  isAbsolute_join_of_noSlash h.noSlash

/-- The joined path ends in the name, and adds nothing but a slash to the directory. -/
theorem toList_join_eq_append (p : Path) (name : String) :
    ∃ front, (p.join name).text.toList = front ++ name.toList ∧
      ∀ c ∈ front, c ∈ p.text.toList ∨ c = '/' := by
  rcases toList_join p name with ⟨hp, hjoin⟩ | ⟨-, hjoin⟩ | ⟨front, hp, hjoin⟩
  · exact ⟨[], hjoin, by simp⟩
  · exact ⟨p.text.toList ++ ['/'], by simp [hjoin], by simp⟩
  · exact ⟨front ++ ['/'], by simp [hjoin], by simp [hp]⟩

/-- Seen from its end, the joined path is the name and then the directory. -/
theorem reverse_join (p : Path) (name : String) :
    ∃ rest, (p.join name).text.toList.reverse = name.toList.reverse ++ rest ∧
      (rest = [] ∨ ∃ more, rest = '/' :: more) ∧ dropIdleEnd rest = p.upToName := by
  rcases toList_join p name with ⟨hp, hjoin⟩ | ⟨hp, hjoin⟩ | ⟨front, hp, hjoin⟩
  · exact ⟨[], by rw [hjoin, List.append_nil], .inl rfl, by rw [upToName, hp]; rfl⟩
  · exact ⟨'/' :: p.text.toList.reverse, by simp [hjoin], .inr ⟨_, rfl⟩, by
      rw [dropIdleEnd, upToName]⟩
  · exact ⟨'/' :: front.reverse, by simp [hjoin], .inr ⟨_, rfl⟩, by
      rw [upToName, hp, List.reverse_append]
      rfl⟩

/-- A name is neither of what does not matter at the end of a path. -/
theorem dropIdleEnd_name (hnonempty : name ≠ "") (hnoDot : name ≠ ".")
    (hnoSlash : '/' ∉ name.toList) (rest : List Char) :
    dropIdleEnd (name.toList.reverse ++ rest) = name.toList.reverse ++ rest := by
  have hslash : '/' ∉ name.toList.reverse := fun hmem =>
    hnoSlash (List.mem_reverse.mp hmem)
  have hdot : name.toList.reverse ≠ ['.'] := fun hdot => hnoDot (String.ext (by
    rw [← List.reverse_reverse name.toList, hdot]
    rfl))
  have hempty : name.toList.reverse ≠ [] :=
    List.reverse_ne_nil_iff.mpr (mt String.toList_eq_nil_iff.mp hnonempty)
  obtain ⟨c, cs, hname⟩ := List.exists_cons_of_ne_nil hempty
  rw [hname] at hslash hdot ⊢
  unfold dropIdleEnd
  split
  case h_1 heq =>
    obtain ⟨rfl, -⟩ := List.cons.inj heq
    exact absurd List.mem_cons_self hslash
  case h_2 heq =>
    obtain ⟨rfl, htail⟩ := List.cons.inj heq
    cases cs with
    | nil => exact absurd rfl hdot
    | cons c' cs =>
      obtain ⟨rfl, -⟩ := List.cons.inj htail
      exact absurd (List.mem_cons_of_mem _ List.mem_cons_self) hslash
  case h_3 => rfl

theorem upToName_join_of_noSlash (hnonempty : name ≠ "") (hdot : name ≠ ".")
    (hslash : '/' ∉ name.toList) :
    (p.join name).upToName = (p.join name).text.toList.reverse := by
  obtain ⟨rest, hjoin, -, -⟩ := reverse_join p name
  rw [upToName, hjoin, dropIdleEnd_name hnonempty hdot hslash]

theorem upToName_join (h : IsName name) :
    (p.join name).upToName = (p.join name).text.toList.reverse :=
  upToName_join_of_noSlash h.nonempty h.noDot h.noSlash

theorem fileName?_join (h : IsName name) : (p.join name).fileName? = some name := by
  obtain ⟨rest, hjoin, hrest, -⟩ := reverse_join p name
  have hstop : rest.takeWhile (fun c => decide (c ≠ '/')) = [] := by
    rcases hrest with rfl | ⟨more, rfl⟩ <;> simp
  rw [fileName?, upToName_join h, hjoin,
    List.takeWhile_append_of_pos (ne_slash_of_noSlash h.noSlash), hstop, List.append_nil,
    List.reverse_reverse, String.ofList_toList]
  simp [h.nonempty, h.noDot, h.noDots]

theorem extension?_join (h : IsName name) : (p.join name).extension? = (splitName name).2 := by
  rw [extension?, fileName?_join h]
  rfl

theorem stem?_join (h : IsName name) : (p.join name).stem? = some (splitName name).1 := by
  rw [stem?, fileName?_join h]
  rfl

theorem parent?_join_of_noSlash (hnonempty : name ≠ "") (hdot : name ≠ ".")
    (hslash : '/' ∉ name.toList) : (p.join name).parent? = some p.tidy := by
  obtain ⟨rest, hjoin, hrest, hdirectory⟩ := reverse_join p name
  have hstart : rest.dropWhile (fun c => decide (c ≠ '/')) = rest := by
    rcases hrest with rfl | ⟨more, rfl⟩ <;> simp
  have hreverse := upToName_join_of_noSlash (p := p) hnonempty hdot hslash
  have hup : (p.join name).upToName ≠ [] := by
    rw [hreverse, hjoin]
    simp [hnonempty]
  have hdrop : dropIdleEnd ((p.join name).upToName.dropWhile fun c => decide (c ≠ '/')) =
      p.upToName := by
    rw [hreverse, hjoin, List.dropWhile_append_of_pos (ne_slash_of_noSlash hslash), hstart,
      hdirectory]
  unfold parent?
  split
  case h_1 hnil => exact absurd hnil hup
  case h_2 =>
    rw [hdrop, isAbsolute_join_of_noSlash hslash]
    split
    case h_1 hnil => rw [tidy_of_upToName_eq_nil hnil]
    case h_2 hne => rw [tidy_of_upToName_ne_nil hne]

theorem parent?_join (h : IsName name) : (p.join name).parent? = some p.tidy :=
  parent?_join_of_noSlash h.nonempty h.noDot h.noSlash

end Join

/-! ### Extensions -/

/-- A name with an extension is its stem, a dot and the extension, and its stem is not empty. -/
theorem eq_of_splitName {name extension : String} (h : (splitName name).2 = some extension) :
    name = (splitName name).1 ++ "." ++ extension ∧ (splitName name).1 ≠ "" := by
  have hparts : name.toList.reverse.takeWhile (fun c => decide (c ≠ '.')) ++
      name.toList.reverse.dropWhile (fun c => decide (c ≠ '.')) = name.toList.reverse :=
    List.takeWhile_append_dropWhile
  have hdot := List.head?_dropWhile_not (fun c => decide (c ≠ '.')) name.toList.reverse
  simp only [splitName] at h ⊢
  generalize name.toList.reverse.dropWhile (fun c => decide (c ≠ '.')) = back at h hparts hdot ⊢
  match back with
  | [] => cases h
  | [_] => cases h
  | c :: c' :: stem =>
    obtain rfl : c = '.' := by simpa using hdot
    have hextension := Option.some.inj h
    refine ⟨String.ext ?_, by simp⟩
    rw [← List.reverse_reverse name.toList, ← hparts, ← hextension]
    simp

end Path

end LayoutCompiler.Files
