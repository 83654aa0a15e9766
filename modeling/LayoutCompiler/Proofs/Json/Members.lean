import LayoutCompiler.Proofs.Json.Settled
import Mathlib.Data.List.Perm.Basic
import Mathlib.Data.Option.Basic

/-
What the members of an object make, whatever their order. Members can be added to a record
in any order, with the same outcome (`foldlM_add?_perm`). A member that gives nothing, or
`null` for a field that may be absent, can be left out where no field is given twice
(`fills_foldlM`). So a record is made of the members that are left (`Schema.meaning?`), and
neither their order nor the others make a difference (`meaning?_of_change`).
-/

namespace LayoutCompiler.Json

section Drafts

variable {φ : Type} {β : φ → Type} [DecidableEq φ]

theorem Draft.set_self (d : Draft β) (f : φ) (b : β f) : d.set f b f = some b := by
  simp [Draft.set]

theorem Draft.set_of_ne (d : Draft β) {f g : φ} (h : f ≠ g) (b : β f) : d.set f b g = d g := by
  simp [Draft.set, h]

theorem Draft.set_comm (d : Draft β) {f g : φ} (h : f ≠ g) (a : β f) (b : β g) :
    (d.set f a).set g b = (d.set g b).set f a := by
  funext i
  by_cases hf : f = i
  · subst hf
    rw [set_self, set_of_ne _ h.symm, set_self]
  · by_cases hg : g = i
    · subst hg
      rw [set_self, set_of_ne _ hf, set_self]
    · rw [set_of_ne _ hg, set_of_ne _ hf, set_of_ne _ hf, set_of_ne _ hg]

end Drafts

/-! ### Changes of the members -/

section Changes

variable {φ : Type}

/-- The member makes no difference: its key is a text but no field's name, or its value is `null`
and the field may be absent. -/
inductive SaysNothing (name : φ → String) (optional : φ → Bool) : Member → Prop
  | unknown {m : Member} {key : String} (hkey : m.key? = some key) (h : ∀ f, name f ≠ key) :
    SaysNothing name optional m
  | null {letters : List Letter} {f : φ} (hkey : Member.key? (letters, .null) = some (name f))
    (h : optional f = true) : SaysNothing name optional (letters, .null)

/-- One change of the members of an object that makes no difference. -/
inductive MembersChange (name : φ → String) (optional : φ → Bool) :
    List Member → List Member → Prop
  | reordered {ms ms' : List Member} (h : ms.Perm ms') : MembersChange name optional ms ms'
  | added {ms ms' : List Member} {m : Member} (h : SaysNothing name optional m) :
    MembersChange name optional (ms ++ ms') (ms ++ m :: ms')
  | removed {ms ms' : List Member} {m : Member} (h : SaysNothing name optional m) :
    MembersChange name optional (ms ++ m :: ms') (ms ++ ms')

/-- No field is given twice. -/
def GivenOnce (name : φ → String) (ms : List Member) : Prop :=
  ms.Pairwise fun m m' => ∀ f, m.key? = some (name f) → m'.key? ≠ some (name f)

/-- Members with different keys give no field twice. -/
theorem givenOnce_of_nodup {name : φ → String} {ms : List Member}
    (h : (ms.map Member.key?).Nodup) : GivenOnce name ms :=
  (List.pairwise_map.mp h).imp fun hne _ hkey hkey' => hne (hkey.trans hkey'.symm)

end Changes

namespace Schema

variable {φ α : Type} {β : φ → Type} {S : Schema φ β} {M : (f : φ) → Value → Option (β f)}

/-- Whether a member gives nothing, or `null` for a field that may be absent. -/
def silent (S : Schema φ β) (optional : φ → Bool) (m : Member) : Bool :=
  match S.given? m with
  | none => false
  | some none => true
  | some (some f) => optional f && m.2.isNull

theorem given?_name (hnames : ∀ f, S.field? (S.name f) = some f) {m : Member} {f : φ}
    (h : m.key? = some (S.name f)) : S.given? m = some (some f) := by
  rw [given?, h, Option.map_some, hnames]

theorem key?_of_given? {m : Member} {f : φ} (h : S.given? m = some (some f)) :
    m.key? = some (S.name f) := by
  obtain ⟨key, hkey, hfield⟩ := Option.map_eq_some_iff.mp h
  have hname := List.find?_some hfield
  rw [hkey, beq_iff_eq.mp hname]

theorem silent_of_saysNothing {optional : φ → Bool} (hnames : ∀ f, S.field? (S.name f) = some f)
    {m : Member} (h : SaysNothing S.name optional m) : S.silent optional m = true := by
  cases h with
  | unknown hkey hother =>
    have hfield : S.field? _ = none := List.find?_eq_none.mpr fun f _ => by simpa using hother f
    rw [silent, given?, hkey, Option.map_some, hfield]
  | null hkey hoptional =>
    rw [silent, given?_name hnames hkey]
    simp [hoptional, Value.isNull]

/-- The draft `d` is the draft `d'` with `null` for some of the fields that may be absent. -/
def Fills (optional : φ → Bool) (M : (f : φ) → Value → Option (β f)) (d d' : Draft β) : Prop :=
  ∀ f, d f = d' f ∨ optional f = true ∧ d' f = none ∧ d f = M f .null

theorem Fills.eq_none {optional : φ → Bool} {d d' : Draft β} (h : Fills optional M d d') {f : φ}
    (hd : d f = none) : d' f = none := by
  rcases h f with heq | ⟨-, hnone, -⟩
  · exact heq.symm.trans hd
  · exact hnone

variable [DecidableEq φ]

/-! ### Adding members -/

theorem add?_none {m : Member} (h : S.given? m = none) (d : Draft β) : S.add? M d m = none := by
  rw [add?, h]

theorem add?_ignored {m : Member} (h : S.given? m = some none) (d : Draft β) :
    S.add? M d m = some d := by
  rw [add?, h]

theorem add?_field {m : Member} {f : φ} (h : S.given? m = some (some f)) (d : Draft β) :
    S.add? M d m = if (d f).isSome then none else (M f m.2).map (d.set f) := by
  rw [add?, h]

/-- Two members can be added in either order. -/
theorem add?_comm (d : Draft β) (m m' : Member) :
    ((S.add? M d m).bind fun d' => S.add? M d' m') =
      (S.add? M d m').bind fun d' => S.add? M d' m := by
  match h : S.given? m, h' : S.given? m' with
  | none, _ => simp [add?_none h]
  | some none, _ => simp [add?_ignored h]
  | some (some f), none => simp [add?_none h']
  | some (some f), some none => simp [add?_ignored h']
  | some (some f), some (some g) =>
    simp only [add?_field h, add?_field h']
    by_cases hfg : f = g
    · subst hfg
      cases (d f).isSome <;> cases M f m.2 <;> cases M f m'.2 <;> simp [Draft.set_self]
    · have hgf : g ≠ f := Ne.symm hfg
      cases hf : (d f).isSome <;> cases hg : (d g).isSome <;> cases M f m.2 <;>
        cases M g m'.2 <;>
          simp [hf, hg, Draft.set_of_ne _ hfg, Draft.set_of_ne _ hgf, Draft.set_comm _ hfg]

theorem foldlM_add?_perm {ms ms' : List Member} (h : ms.Perm ms') (d : Draft β) :
    ms.foldlM (S.add? M) d = ms'.foldlM (S.add? M) d := by
  induction h generalizing d with
  | nil => rfl
  | cons m _ ih => simp only [List.foldlM_cons, ih]
  | swap m m' ms =>
    have hcomm := add?_comm (M := M) (S := S) d m' m
    simp only [List.foldlM_cons, Option.bind_eq_bind, ← Option.bind_assoc, hcomm]
  | trans _ _ ih ih' => rw [ih, ih']

/-- What an object makes of a record, leaving out the members that are silent; `M` reads the values
of the fields. -/
def meaning? (S : Schema φ β) (optional : φ → Bool) (M : (f : φ) → Value → Option (β f))
    (build : Draft β → Except φ α) : Value → Option α
  | .object ms =>
    ((ms.filter fun m => !S.silent optional m).foldlM (S.add? M) .empty).bind fun d =>
      (build d).toOption
  | _ => none

/-! ### Leaving out silent members -/

theorem Fills.set {optional : φ → Bool} {d d' : Draft β} (h : Fills optional M d d') (f : φ)
    (b : β f) : Fills optional M (d.set f b) (d'.set f b) := by
  intro g
  by_cases hg : f = g
  · subst hg
    exact .inl (by rw [Draft.set_self, Draft.set_self])
  · rw [Draft.set_of_ne d hg, Draft.set_of_ne d' hg]
    exact h g

theorem Fills.setNull {optional : φ → Bool} {d d' : Draft β} (h : Fills optional M d d') {f : φ}
    (hf : optional f = true) (hd : d f = none) {b : β f} (hb : M f .null = some b) :
    Fills optional M (d.set f b) d' := by
  intro g
  by_cases hg : f = g
  · subst hg
    exact .inr ⟨hf, h.eq_none hd, by rw [Draft.set_self, hb]⟩
  · rw [Draft.set_of_ne d hg]
    exact h g

/-- The field of one member is not the field of another. -/
theorem set_eq_none {m : Member} {ms : List Member} {d : Draft β} {f : φ}
    (hother : ∀ m' ∈ ms, ∀ f, m.key? = some (S.name f) → m'.key? ≠ some (S.name f))
    (hgiven : S.given? m = some (some f))
    (hfree : ∀ m' ∈ ms, ∀ g, S.given? m' = some (some g) → d g = none) (b : β f) :
    ∀ m' ∈ ms, ∀ g, S.given? m' = some (some g) → d.set f b g = none := by
  intro m' hm' g hg
  have hne : f ≠ g := by
    rintro rfl
    exact hother m' hm' f (key?_of_given? hgiven) (key?_of_given? hg)
  rw [Draft.set_of_ne d hne]
  exact hfree m' hm' g hg

/-- Leaving out the silent members leaves out `null` for fields that may be absent, and nothing
else. -/
theorem fills_foldlM {optional : φ → Bool} (hnull : ∀ f, optional f = true → (M f .null).isSome)
    {ms : List Member} (honce : GivenOnce S.name ms) {d d' : Draft β}
    (hfills : Fills optional M d d')
    (hfree : ∀ m ∈ ms, ∀ f, S.given? m = some (some f) → d f = none) :
    Option.Rel (Fills optional M) (ms.foldlM (S.add? M) d)
      ((ms.filter fun m => !S.silent optional m).foldlM (S.add? M) d') := by
  -- The drafts hold the members before; no member still to come gives a field that they hold.
  induction ms generalizing d d' with
  | nil => exact .some hfills
  | cons m ms ih =>
    obtain ⟨hm, honce⟩ := List.pairwise_cons.mp honce
    obtain ⟨hmfree, hfree⟩ := List.forall_mem_cons.mp hfree
    match hgiven : S.given? m with
    | none =>
      have hkept : S.silent optional m = false := by rw [silent, hgiven]
      simp only [List.filter_cons, hkept, List.foldlM_cons, add?_none hgiven, Bool.not_false,
        if_true]
      exact .none
    | some none =>
      have hsilent : S.silent optional m = true := by rw [silent, hgiven]
      simp only [List.filter_cons, hsilent, List.foldlM_cons, add?_ignored hgiven]
      exact ih honce hfills hfree
    | some (some f) =>
      have hd : d f = none := hmfree f hgiven
      have hfree' (b : β f) := set_eq_none hm hgiven hfree b
      have hadd : S.add? M d m = (M f m.2).map (d.set f) := by
        rw [add?_field hgiven, hd]
        rfl
      rw [List.foldlM_cons, hadd]
      cases hsilent : S.silent optional m with
      | true =>
        obtain ⟨hoptional, hvalue⟩ : optional f = true ∧ m.2.isNull = true := by
          simpa [silent, hgiven] using hsilent
        obtain ⟨b, hb⟩ := Option.isSome_iff_exists.mp (hnull f hoptional)
        simp only [List.filter_cons, hsilent, Value.eq_null_of_isNull hvalue, hb]
        exact ih honce (hfills.setNull hoptional hd hb) (hfree' b)
      | false =>
        have hadd' : S.add? M d' m = (M f m.2).map (d'.set f) := by
          rw [add?_field hgiven, hfills.eq_none hd]
          rfl
        simp only [List.filter_cons, hsilent, Bool.not_false, if_true, List.foldlM_cons, hadd']
        cases M f m.2 with
        | none => exact .none
        | some b => exact ih honce (hfills.set f b) (hfree' b)

/-- An object in which no field is given twice is read as the record that it makes without its
silent members, if `build` does not tell `null` from an absent field where a field may be
absent. -/
theorem settles_meaning (title : String) {optional : φ → Bool} {build : Draft β → Except φ α}
    (hnull : ∀ f, optional f = true → (M f .null).isSome)
    (hbuild : ∀ d d', Fills optional M d d' → build d = build d') {ms : List Member}
    (honce : GivenOnce S.name ms)
    (h : ∀ m ∈ ms, ∀ f, S.given? m = some (some f) → Settles (S.value f) m.2 (M f m.2)) :
    Settles (record title (some S) build) (.object ms)
      (S.meaning? optional M build (.object ms)) := by
  have hfills : Option.Rel (Fills optional M) (ms.foldlM (S.add? M) .empty)
      ((ms.filter fun m => !S.silent optional m).foldlM (S.add? M) .empty) :=
    fills_foldlM hnull honce (fun _ => .inl rfl) fun _ _ _ _ => rfl
  have hmeaning : S.meaning? optional M build (.object ms) =
      (ms.foldlM (S.add? M) .empty).bind fun d => (build d).toOption := by
    rw [meaning?]
    generalize ms.foldlM (S.add? M) .empty = o,
      (ms.filter fun m => !S.silent optional m).foldlM (S.add? M) .empty = o' at hfills
    cases hfills with
    | none => rfl
    | some hd => rw [Option.bind_some, Option.bind_some, hbuild _ _ hd]
  rw [hmeaning]
  exact settles_record title build h

/-- Changes that make no difference do not change what an object makes. -/
theorem meaning?_of_change {optional : φ → Bool} (hnames : ∀ f, S.field? (S.name f) = some f)
    (build : Draft β → Except φ α) {ms ms' : List Member}
    (h : MembersChange S.name optional ms ms') :
    S.meaning? optional M build (.object ms) = S.meaning? optional M build (.object ms') := by
  unfold meaning?
  cases h with
  | reordered h => simp only [foldlM_add?_perm (h.filter _)]
  | added h =>
    have hsilent := silent_of_saysNothing hnames h
    simp [List.filter_append, hsilent]
  | removed h =>
    have hsilent := silent_of_saysNothing hnames h
    simp [List.filter_append, hsilent]

theorem meaning?_of_not_object {optional : φ → Bool} (build : Draft β → Except φ α) {v : Value}
    (h : ∀ ms, v ≠ .object ms) : S.meaning? optional M build v = none := by
  cases v with
  | object ms => exact absurd rfl (h ms)
  | _ => rfl

/-- Another value of the same meaning does not change what an object makes. -/
theorem meaning?_of_member {optional : φ → Bool} (hnames : ∀ f, S.field? (S.name f) = some f)
    (build : Draft β → Except φ α) {letters : List Letter} {v v' : Value} {f : φ}
    (hkey : Member.key? (letters, v) = some (S.name f)) (hv : v.isNull = false)
    (hv' : v'.isNull = false) (h : M f v = M f v') (ms ms' : List Member) :
    S.meaning? optional M build (.object (ms ++ (letters, v) :: ms')) =
      S.meaning? optional M build (.object (ms ++ (letters, v') :: ms')) := by
  have hgiven : S.given? (letters, v) = some (some f) := given?_name hnames hkey
  have hgiven' : S.given? (letters, v') = some (some f) := hgiven
  have hsilent : S.silent optional (letters, v) = false := by simp [silent, hgiven, hv]
  have hsilent' : S.silent optional (letters, v') = false := by simp [silent, hgiven', hv']
  have hadd (d : Draft β) : S.add? M d (letters, v) = S.add? M d (letters, v') := by
    rw [add?_field hgiven, add?_field hgiven', h]
  simp [meaning?, List.filter_append, hsilent, hsilent', List.foldlM_append, hadd]

end Schema

end LayoutCompiler.Json
