import LayoutCompiler.Proofs.Document.Calls
import LayoutCompiler.Proofs.Document.Operations
import Mathlib.Data.List.Dedup

/-
Numbers of texts over any calls. The table of a writer holds the texts that its calls
have added, each at the place of its first addition, whatever else was called and
whatever came of it (`texts_after`). A number is given for the table as it is at the
call, which is a prefix of every later table, so all numbers of a run are those of its
last table (`fst_addText_of_prefix`); there they tell texts apart and are looked up,
and the map of the writer is the inverse of the table
(`TextTable.lookup_numbers_eq_some_iff`).
-/

namespace LayoutCompiler.Document

/-- The text that a call adds. -/
def Call.text? : Call → Option String
  | .addText text => some text
  | .begin _ | .startRoot | .startColumn _ _ _ | .startRow _ _ _ | .startBox _ _ _ | .textRun _
  | .endRoot | .endContainer => none

/-- The texts that calls add, in order, each as often as it is added. -/
def addedTexts (calls : List Call) : List String :=
  calls.filterMap Call.text?

/-- A table that is begun with nothing holds each text at its first place. -/
theorem withTexts_nil (ss : List String) : withTexts [] ss = ss.eraseDups := by
  induction ss using List.reverseRecOn with
  | nil => rfl
  | append_singleton ss s ih =>
    rw [withTexts_append, ih, List.eraseDups_append]
    show withText ss.eraseDups s = _
    by_cases hs : s ∈ ss <;> simp [withText, List.removeAll, List.eraseDups_cons, hs]

namespace Writer

theorem texts_close (w : Writer) (kind : Open) (op : Operation) :
    (w.close kind op).2.texts = w.texts := by
  unfold close
  cases w.opened with
  | nil => rfl
  | cons last rest => by_cases hlast : last = kind <;> simp [hlast, texts]

/-- A call adds its text to the table, and all other calls leave the table alone. -/
theorem texts_call (w : Writer) (c : Call) :
    (w.call c).2.texts = withTexts w.texts c.text?.toList := by
  cases c with
  | addText text => exact w.table.texts_addAll [text]
  | begin | startRoot | startColumn | startRow | startBox | textRun => rfl
  | endRoot => exact texts_close w _ _
  | endContainer => exact texts_close w _ _

theorem texts_after (w : Writer) (calls : List Call) :
    (w.after calls).texts = withTexts w.texts (addedTexts calls) := by
  induction calls generalizing w with
  | nil => rfl
  | cons c calls ih =>
    have hfirst := texts_call w c
    have hrest := ih (w.call c).2
    rw [hfirst, ← withTexts_append] at hrest
    refine hrest.trans (congrArg (withTexts w.texts) ?_)
    cases c <;> rfl

/-- The number that is given for a text is its number in every later table. -/
theorem fst_addText_of_prefix (w : Writer) {before calls : List Call} {text : String}
    (h : before ++ [.addText text] <+: calls) :
    text ∈ (w.after calls).texts ∧
      ((w.after before).addText text).1 = numberIn (w.after calls).texts text := by
  obtain ⟨rest, rfl⟩ := h
  have hmem : text ∈ withText (w.after before).texts text := mem_withText.mpr (.inr rfl)
  have hgrown : withText (w.after before).texts text <+:
      (w.after (before ++ [.addText text] ++ rest)).texts := by
    rw [after_append, texts_after (w.after (before ++ [Call.addText text])) rest, after_concat,
      texts_call]
    exact prefix_withTexts _ _
  rw [addText_eq]
  exact ⟨hgrown.subset hmem, numberIn_of_prefix hgrown hmem⟩

end Writer

/-- A text and a number are found under each other. -/
theorem TextTable.lookup_numbers_eq_some_iff {x : TextTable} (hnodup : x.texts.Nodup)
    (hlength : x.texts.length ≤ 2 ^ 32) {t : String} {id : TextId} :
    x.numbers.lookup t = some id ↔ x.texts[id.toNat]? = some t := by
  rw [x.lookup_numbers]
  constructor
  · intro hid
    by_cases ht : t ∈ x.texts
    · rw [if_pos ht, Option.some.injEq] at hid
      rw [← hid]
      exact getElem?_numberIn hlength ht
    · rw [if_neg ht] at hid
      cases hid
  · intro hid
    obtain ⟨hlt, rfl⟩ := List.getElem?_eq_some_iff.mp hid
    rw [if_pos (List.getElem_mem hlt), numberIn, hnodup.idxOf_getElem, UInt32.ofNat_toNat]

open Writer (empty)

/-! ### Numbers of a run -/

/-- **Texts and their numbers.** After any calls, refused ones among them, the table holds the added
texts in the order of their first addition, none twice; a number that is given is the place of its
text, and the map of the writer is the inverse of the table. Numbers that are given at any two
moments are the same if and only if the texts are, and in the finished document every number that
was ever given is looked up to the text it was given for. -/
theorem numbered_after {calls : List Call}
    (hdistinct : (addedTexts calls).dedup.length < 2 ^ 32) :
    (empty.after calls).texts = (addedTexts calls).eraseDups ∧ (empty.after calls).texts.Nodup ∧
      (∀ before a, ((empty.after before).addText a).1 =
        numberIn (withText (empty.after before).texts a) a) ∧
      (∀ t id, (empty.after calls).table.numbers.lookup t = some id ↔
        (empty.after calls).texts[id.toNat]? = some t) ∧
      (∀ before before' a b, before ++ [.addText a] <+: calls →
        before' ++ [.addText b] <+: calls →
          (((empty.after before).addText a).1 = ((empty.after before').addText b).1 ↔ a = b)) ∧
      ∀ d, (empty.after calls).document = .ok d →
        d.texts = (addedTexts calls).eraseDups ∧
          ∀ before a, before ++ [.addText a] <+: calls →
            d.text? ((empty.after before).addText a).1 = some a := by
  have hnodup := Writer.nodup_texts_after calls
  have htexts : (empty.after calls).texts = (addedTexts calls).eraseDups :=
    (Writer.texts_after empty calls).trans (withTexts_nil _)
  have hlength : (empty.after calls).texts.length ≤ 2 ^ 32 := by
    have hsubset : (empty.after calls).texts ⊆ (addedTexts calls).dedup := fun t ht =>
      List.mem_dedup.mpr (List.mem_eraseDups.mp (htexts ▸ ht))
    exact Nat.le_of_lt (Nat.lt_of_le_of_lt (hnodup.length_le_of_subset hsubset) hdistinct)
  refine ⟨htexts, hnodup, fun before a => by rw [Writer.addText_eq], fun t id => ?_,
    fun before before' a b ha hb => ?_, fun d hd => ?_⟩
  · exact TextTable.lookup_numbers_eq_some_iff hnodup hlength
  · obtain ⟨hmem, hnumber⟩ := Writer.fst_addText_of_prefix empty ha
    obtain ⟨hmem', hnumber'⟩ := Writer.fst_addText_of_prefix empty hb
    rw [hnumber, hnumber', numberIn_inj hlength hmem hmem']
  · obtain ⟨-, rfl⟩ := Writer.document_eq_ok_iff.mp hd
    refine ⟨htexts, fun before a ha => ?_⟩
    obtain ⟨hmem, hnumber⟩ := Writer.fst_addText_of_prefix empty ha
    rw [hnumber]
    exact getElem?_numberIn hlength hmem

/-- Two texts, the first one asked for again after a refused call. -/
def repeatedText : List Call :=
  [.addText "go", .startRow [] .leading .center, .addText "", .endRoot, .endContainer,
    .addText "go"]

theorem numbered_after_repeatedText :
    (addedTexts repeatedText).dedup.length < 2 ^ 32 ∧
      (empty.after repeatedText).texts = ["go", ""] ∧
      ((empty.after (repeatedText.take 5)).addText "go").1 = (empty.addText "go").1 ∧
      ((empty.after (repeatedText.take 2)).addText "").1 ≠ (empty.addText "go").1 ∧
      ∃ d, (empty.after repeatedText).document = .ok d ∧
        d.text? ((empty.after (repeatedText.take 2)).addText "").1 = some "" := by
  have hdistinct : (addedTexts repeatedText).dedup.length < 2 ^ 32 := by decide
  obtain ⟨htexts, -, -, -, hsame, hdocument⟩ := numbered_after hdistinct
  have hfirst : [] ++ [Call.addText "go"] <+: repeatedText := ⟨_, rfl⟩
  have hempty : repeatedText.take 2 ++ [.addText ""] <+: repeatedText := ⟨_, rfl⟩
  have hagain : repeatedText.take 5 ++ [.addText "go"] <+: repeatedText := ⟨[], rfl⟩
  refine ⟨hdistinct, htexts.trans (by decide), (hsame _ _ _ _ hagain hfirst).mpr rfl, ?_, _, rfl,
    (hdocument _ rfl).2 _ _ hempty⟩
  exact fun h => absurd ((hsame _ _ _ _ hempty hfirst).mp h) (by decide)

end LayoutCompiler.Document
