import LayoutCompiler.Json.Record

/-
What readers return, whatever text they are given. If all that is read for the items of
a list, or for one field of a record, has a property, then the list or the record that
is returned has it in its place.
-/

namespace LayoutCompiler.Json

/-- All that a reader returns has a property. -/
def Reader.Ensures {α : Type} (reader : Reader α) (P : α → Prop) : Prop :=
  ∀ ⦃s a r⦄, reader.run s = .ok (a, r) → P a

/-! ### Lists -/

section Lists

variable {α : Type} {reader : Reader α} {P : α → Prop}

theorem Reader.Ensures.optional (h : reader.Ensures P) :
    reader.optional.Ensures fun value => ∀ a ∈ value, P a := by
  intro s value r hrun a ha
  simp only [Reader.optional] at hrun
  split at hrun
  · obtain ⟨_, -, hvalue⟩ := exists_of_map_eq_ok hrun
    cases hvalue
    cases ha
  · obtain ⟨⟨b, t⟩, hread, hvalue⟩ := exists_of_map_eq_ok hrun
    cases hvalue
    cases ha
    exact h hread

theorem Reader.Ensures.items (h : reader.Ensures P) {acc as : List α} {first : Bool}
    {s r : List Char} (hacc : ∀ a ∈ acc, P a) (hrun : items reader acc first s = .ok (as, r)) :
    ∀ a ∈ as, P a := by
  fun_induction Json.items reader acc first s with
  | case1 => cases hrun
  | case2 acc first s r' hnext =>
    cases hrun
    intro a ha
    exact hacc a (List.mem_reverse.mp ha)
  | case3 => cases hrun
  | case4 acc first s r' hnext a t hread hshorter ih =>
    refine ih (fun b hb => ?_) hrun
    rcases List.mem_cons.mp hb with rfl | hb
    · exact h hread
    · exact hacc b hb

theorem Reader.Ensures.list (h : reader.Ensures P) :
    (Reader.list (some reader)).Ensures fun as => ∀ a ∈ as, P a := by
  intro s as r hrun
  simp only [Reader.list] at hrun
  split at hrun
  · cases hrun
  · exact h.items (by simp) hrun
  · cases hrun

/-- No list is returned where none may be opened. -/
theorem ensures_list_none : (Reader.list (none : Option (Reader α))).Ensures fun _ => False := by
  intro s as r hrun
  simp only [Reader.list] at hrun
  split at hrun <;> cases hrun

end Lists

/-! ### Records -/

section Records

variable {φ : Type} {β : φ → Type} [DecidableEq φ] {S : Schema φ β} {f : φ} {P : β f → Prop}

/-- Setting any field to what its reader returns keeps the property of the field `f`. -/
theorem Schema.forall_set (h : (S.value f).Ensures P) {d : Draft β} (hd : ∀ a ∈ d f, P a) {g : φ}
    {b : β g} {s r : List Char} (hread : (S.value g).run s = .ok (b, r)) :
    ∀ a ∈ d.set g b f, P a := by
  intro a ha
  unfold Draft.set at ha
  split at ha
  · next hg =>
    subst hg
    cases ha
    exact h hread
  · exact hd a ha

theorem Schema.member_ensures (h : (S.value f).Ensures P) {d d' : Draft β} {key : String}
    {s r : List Char} (hd : ∀ a ∈ d f, P a) (hrun : S.member d key s = .ok (d', r)) :
    ∀ a ∈ d' f, P a := by
  unfold Schema.member at hrun
  split at hrun
  · split at hrun
    · cases hrun
    · obtain ⟨_, -, hresult⟩ := exists_of_map_eq_ok hrun
      cases hresult
      exact hd
  · split at hrun
    · cases hrun
    · split at hrun
      · cases hrun
      · obtain ⟨⟨b, t⟩, hread, hresult⟩ := exists_of_map_eq_ok hrun
        cases hresult
        exact Schema.forall_set h hd hread

theorem Schema.members_ensures (h : (S.value f).Ensures P) {first : Bool} {d d' : Draft β}
    {s r : List Char} (hd : ∀ a ∈ d f, P a) (hrun : S.members first d s = .ok (d', r)) :
    ∀ a ∈ d' f, P a := by
  fun_induction Schema.members S first d s with
  | case1 => cases hrun
  | case2 first d s r' hnext =>
    cases hrun
    exact hd
  | case3 => cases hrun
  | case4 first d s key r' hnext d'' t hread hshorter ih =>
    exact ih (Schema.member_ensures h hd hread) hrun

theorem Schema.values_ensures (h : (S.value f).Ensures P) {fields : List φ} {first : Bool}
    {d d' : Draft β} {s r : List Char} (hd : ∀ a ∈ d f, P a)
    (hrun : S.values first d fields s = .ok (d', r)) : ∀ a ∈ d' f, P a := by
  induction fields generalizing first d s with
  | nil =>
    obtain ⟨_, -, hresult⟩ := exists_of_map_eq_ok hrun
    cases hresult
    exact hd
  | cons g fields ih =>
    simp only [Schema.values] at hrun
    split at hrun
    · cases hrun
    · cases hrun
      exact hd
    · split at hrun
      · cases hrun
      · next hread => exact ih (Schema.forall_set h hd hread) hrun

/-- What holds of all that is read for one field holds of that field when the record is built. -/
theorem Schema.record_ensures {α : Type} {title : String} {build : Draft β → Except φ α}
    {Q : α → Prop} (h : (S.value f).Ensures P)
    (hbuild : ∀ d a, build d = .ok a → (∀ b ∈ d f, P b) → Q a) :
    (Schema.record title (some S) build).Ensures Q := by
  have hempty : ∀ a ∈ (Draft.empty : Draft β) f, P a := by simp [Draft.empty]
  intro s a r hrun
  simp only [Schema.record] at hrun
  split at hrun
  · cases hrun
  · split at hrun
    · cases hrun
    · next hread =>
      split at hrun
      · cases hrun
      · next hbuilt =>
        cases hrun
        exact hbuild _ _ hbuilt (Schema.values_ensures h hempty hread)
  · split at hrun
    · cases hrun
    · next hread =>
      split at hrun
      · cases hrun
      · next hbuilt =>
        cases hrun
        exact hbuild _ _ hbuilt (Schema.members_ensures h hempty hread)
  · cases hrun

/-- No record is returned where none may be opened. -/
theorem Schema.ensures_record_none {α : Type} {title : String} {build : Draft β → Except φ α} :
    (Schema.record title (none : Option (Schema φ β)) build).Ensures fun _ => False := by
  intro s a r hrun
  simp only [Schema.record] at hrun
  split at hrun <;> cases hrun

end Records

/-- What holds of all that a reader returns holds of what is read from a whole text. -/
theorem Reader.Ensures.readAll {α : Type} {reader : Reader α} {P : α → Prop}
    (h : reader.Ensures P) {text : String} {a : α} (hread : reader.readAll text = .ok a) : P a := by
  simp only [Reader.readAll] at hread
  split at hread
  · cases hread
  · next hrun =>
    split at hread
    · cases hread
      exact h hrun
    · cases hread

end LayoutCompiler.Json
