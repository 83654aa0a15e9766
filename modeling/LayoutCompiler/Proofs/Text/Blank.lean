import LayoutCompiler.Text.Blank
import Mathlib.Data.List.DropRight

/-
Trimming takes the blanks at both ends of a text and nothing else (`trimmed_trim`), and
there is one way to do so (`trim_of_trimmed`).
-/

namespace LayoutCompiler.Text

/-- `body` is `cs` without the blanks at both ends. -/
structure Trimmed (cs body : List Char) : Prop where
  around : ∃ front back, cs = front ++ body ++ back ∧ (∀ c ∈ front, isBlank c = true) ∧
    ∀ c ∈ back, isBlank c = true
  first : ∀ c ∈ body.head?, isBlank c = false
  last : ∀ c ∈ body.getLast?, isBlank c = false

theorem trimmed_trim (cs : List Char) : Trimmed cs (trim cs) := by
  have hfront : cs.takeWhile isBlank ++ cs.dropWhile isBlank = cs := List.takeWhile_append_dropWhile
  have hback : trim cs ++ (cs.dropWhile isBlank).rtakeWhile isBlank = cs.dropWhile isBlank :=
    List.rdropWhile_append_rtakeWhile
  refine ⟨⟨cs.takeWhile isBlank, (cs.dropWhile isBlank).rtakeWhile isBlank, ?_,
    fun c hc => List.mem_takeWhile_imp hc, fun c hc => List.mem_rtakeWhile_imp hc⟩, ?_, ?_⟩
  · rw [List.append_assoc, hback, hfront]
  · intro c hc
    have hhead := List.head?_dropWhile_not isBlank cs
    have hne : trim cs ≠ [] := List.ne_nil_of_mem (List.mem_of_mem_head? hc)
    rw [← hback, List.head?_append_of_ne_nil _ hne, hc] at hhead
    simpa using hhead
  · intro c hc
    have hne : trim cs ≠ [] := List.ne_nil_of_mem (List.mem_of_getLast? hc)
    have hlast := List.rdropWhile_last_not isBlank (cs.dropWhile isBlank) hne
    rw [Option.mem_def, List.getLast?_eq_some_getLast hne, Option.some.injEq] at hc
    rw [← hc]
    exact Bool.eq_false_iff.mpr hlast

theorem dropWhile_append_of_head? {p : Char → Bool} {front body : List Char}
    (hfront : ∀ c ∈ front, p c = true) (hbody : ∀ c ∈ body.head?, p c = false) :
    (front ++ body).dropWhile p = body := by
  rw [List.dropWhile_append_of_pos hfront]
  cases body with
  | nil => rfl
  | cons c cs =>
    have hstop : p c = false := hbody c rfl
    exact List.dropWhile_cons_of_neg (by simp [hstop])

/-- What is left if the blanks at both ends are taken off is the trimmed text. -/
theorem trim_of_trimmed {cs body : List Char} (h : Trimmed cs body) : trim cs = body := by
  obtain ⟨⟨front, back, rfl, hfront, hback⟩, hfirst, hlast⟩ := h
  rw [List.append_assoc, trim]
  cases body with
  | nil =>
    rw [List.nil_append, List.dropWhile_append_of_pos hfront, List.dropWhile_eq_nil_iff.mpr hback]
    rfl
  | cons c cs =>
    have hends : ∀ d ∈ back.reverse, isBlank d = true := fun d hd =>
      hback d (List.mem_reverse.mp hd)
    have hstart : ∀ d ∈ (c :: cs ++ back).head?, isBlank d = false := hfirst
    have hend : ∀ d ∈ (c :: cs).reverse.head?, isBlank d = false := by
      rwa [List.head?_reverse]
    rw [dropWhile_append_of_head? hfront hstart, List.reverse_append,
      dropWhile_append_of_head? hends hend, List.reverse_reverse]

end LayoutCompiler.Text
