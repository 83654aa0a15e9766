import LayoutCompiler.Preview.Loop
import LayoutCompiler.Proofs.Preview.History

/-
The loop of a preview, run in any interleaving with its sender. The looks of the loop
and what the sender does make one history of the session, so the session shows what
that history says; `Loop.Follows` adds that the reports of the loop are the renderings
so far, numbered from one. The loop knows that the sender is gone only if it is, and a
look that comes after that finds what was published last; so when the loop has ended,
nothing is left to be found (`last_published_found`).
-/

namespace LayoutCompiler.Preview

open Config (Layout)

/-! ### Moves of the two parties -/

/-- A step of the loop or of its sender. -/
inductive Move where
  | send (x : Sending)
  | close
  | advance

/-- The configuration that is published. -/
def Move.published : Move → Option Layout
  | send x => x.published
  | close | advance => none

/-- The configurations that the sender publishes, in order. -/
def sent (ms : List Move) : List Layout :=
  ms.filterMap Move.published

/-- After the sender has gone there are only steps of the loop. -/
def Orderly (ms : List Move) : Prop :=
  ms.Pairwise fun m m' => m = .close → m' = .advance

/-- Renderings as they are reported: with versions from one on. -/
def numbered (ws : List Widget) : List Report :=
  ws.mapIdx fun i w => ⟨w, .ofNat (i + 1)⟩

namespace Phase

/-- Whether the loop has read that the sender is gone. -/
def knowsClosed : Phase → Bool
  | looking closed | reporting closed _ | testing closed => closed
  | ended => true
  | waiting | reading => false

/-- Whether the loop has read that the sender is gone and has looked into the slot after that. -/
def hasLookedLast : Phase → Bool
  | reporting closed _ | testing closed => closed
  | ended => true
  | waiting | reading | looking _ => false

/-- The steps until the end, if the sender is gone. -/
def stepsLeft : Phase → Nat
  | ended => 0
  | testing true => 1
  | reporting true _ => 2
  | looking true => 3
  | reading => 4
  | waiting => 5
  | testing false => 6
  | reporting false _ => 7
  | looking false => 8

theorem knowsClosed_of_hasLookedLast {p : Phase} (h : p.hasLookedLast = true) :
    p.knowsClosed = true := by
  cases p <;> simp_all [hasLookedLast, knowsClosed]

theorem stepsLeft_le (p : Phase) : p.stepsLeft ≤ 8 := by
  unfold stepsLeft
  split <;> decide

theorem eq_ended_of_stepsLeft_eq_zero {p : Phase} (h : p.stepsLeft = 0) : p = .ended := by
  unfold stepsLeft at h
  split at h <;> simp_all

end Phase

namespace Loop

/-- A loop after a move. -/
def move (l : Loop) : Move → Loop
  | .send x => { l with session := l.session.send x }
  | .close => { l with session := l.session.close }
  | .advance => l.step

/-- A loop after moves. -/
def after (l : Loop) (ms : List Move) : Loop :=
  ms.foldl move l

/-- What a move does to the session. -/
def actions (l : Loop) : Move → List Action
  | .send x => [.send x]
  | .close => [.close]
  | .advance =>
    match l.phase with
    | .looking _ => [.poll]
    | .waiting | .reading | .reporting _ _ | .testing _ | .ended => []

/-- What moves do to the session, in order. -/
def history (l : Loop) : List Move → List Action
  | [] => []
  | m :: ms => l.actions m ++ (l.move m).history ms

variable (l : Loop)

theorem after_append (ms ms' : List Move) : l.after (ms ++ ms') = (l.after ms).after ms' :=
  List.foldl_append

theorem after_concat (ms : List Move) (m : Move) : l.after (ms ++ [m]) = (l.after ms).move m :=
  List.foldl_concat move l m ms

theorem history_append (ms ms' : List Move) :
    l.history (ms ++ ms') = l.history ms ++ (l.after ms).history ms' := by
  induction ms generalizing l with
  | nil => rfl
  | cons m ms ih =>
    rw [List.cons_append, history, history, ih, List.append_assoc]
    rfl

theorem history_concat (ms : List Move) (m : Move) :
    l.history (ms ++ [m]) = l.history ms ++ (l.after ms).actions m := by
  rw [history_append]
  exact congrArg _ (List.append_nil _)

theorem published_actions (m : Move) : published (l.actions m) = m.published.toList := by
  cases m with
  | send x => exact published_singleton _
  | close => rfl
  | advance => cases hphase : l.phase <;> simp [actions, hphase, published, Action.published,
      Move.published]

/-- The history has what the sender has published, whatever the loop does in between. -/
theorem published_history (ms : List Move) : published (l.history ms) = sent ms := by
  induction ms generalizing l with
  | nil => rfl
  | cons m ms ih =>
    rw [history, published_append, ih, published_actions, sent, sent]
    cases hm : m.published <;> simp [hm]

theorem close_mem_actions {m : Move} : .close ∈ l.actions m ↔ m = .close := by
  cases m with
  | send x => simp [actions]
  | close => simp [actions]
  | advance => cases hphase : l.phase <;> simp [actions, hphase]

theorem close_mem_history {ms : List Move} : .close ∈ l.history ms ↔ .close ∈ ms := by
  induction ms generalizing l with
  | nil => simp [history]
  | cons m ms ih => simp [history, ih, close_mem_actions, eq_comm (a := m)]

end Loop

/-! ### Reports -/

theorem numbered_concat (ws : List Widget) (w : Widget) :
    numbered (ws ++ [w]) = numbered ws ++ [⟨w, .ofNat (ws.length + 1)⟩] :=
  List.mapIdx_concat

/-- The session of a loop shows what its history says, and the reports are the renderings so far. -/
structure Loop.Follows (l : Loop) (first : Widget) (h : List Action) : Prop where
  session : l.session.Follows first h
  reports : (l.due ++ l.reports).reverse = numbered (rendered h)

namespace Loop.Follows

variable {l : Loop} {first : Widget} {h : List Action}

theorem of_open {initial : Layout} {s : Session} (hopen : Session.open? initial = .ok s) :
    ∃ first, initial.render = .ok first ∧ (ofSession s).Follows first [] := by
  obtain ⟨first, hfirst, hs⟩ := Session.Follows.of_open hopen
  exact ⟨first, hfirst, hs, rfl⟩

/-- What is no look and shows nothing else leaves the reports as they are. -/
theorem other {s : Session} {a : Action} (hl : l.Follows first h) (ha : a.isPoll = false)
    (hs : s.Follows first (h ++ [a])) (htree : s.tree = l.session.tree)
    (hversion : s.version = l.session.version) :
    Follows { l with session := s } first (h ++ [a]) where
  session := hs
  reports := by
    rw [rendered_other h ha, ← hl.reports]
    simp only [due, report, htree, hversion]

/-- A step of the loop keeps the reports in step with the renderings. -/
theorem step (hl : l.Follows first h) : l.step.Follows first (h ++ l.actions .advance) := by
  have hsession := hl.session
  have hreports := hl.reports
  unfold Loop.step actions
  cases hphase : l.phase with
  | looking closed =>
    refine ⟨hsession.poll, ?_⟩
    rw [due, hphase, List.nil_append] at hreports
    have hversion := hsession.poll.version
    rw [hsession.rendered_poll] at hversion ⊢
    by_cases hrendered : l.session.poll.1 = .rendered
    · rw [if_pos hrendered] at hversion ⊢
      rw [List.length_append, List.length_singleton] at hversion
      simp [due, report, hrendered, hreports, hversion, numbered_concat]
    · rw [if_neg hrendered, List.append_nil, ← hreports]
      simp [due, hrendered]
  | reporting closed rendered =>
    rw [List.append_nil]
    refine ⟨hsession, ?_⟩
    rw [← hreports]
    cases rendered <;> simp [due, report, hphase]
  | testing closed =>
    rw [List.append_nil]
    refine ⟨hsession, ?_⟩
    rw [← hreports]
    cases closed <;> simp [due, hphase]
  | waiting | reading =>
    rw [List.append_nil]
    refine ⟨hsession, ?_⟩
    rw [← hreports]
    simp [due, hphase]
  | ended =>
    rw [List.append_nil]
    exact hl

/-- Every move keeps what a loop shows and reports in step with its history. -/
theorem move (hl : l.Follows first h) (m : Move) : (l.move m).Follows first (h ++ l.actions m) := by
  cases m with
  | send x =>
    exact hl.other rfl (hl.session.send x) (l.session.tree_send x) (l.session.version_send x)
  | close => exact hl.other rfl (hl.session.act .close) rfl rfl
  | advance => exact hl.step

end Loop.Follows

/-! ### The end -/

/-- The loop knows that the sender is gone only if it is, and then leaves nothing unseen. -/
structure Loop.Settles (l : Loop) (h : List Action) : Prop where
  closed : l.phase.knowsClosed = true → l.session.isClosed = true
  unseen : l.phase.hasLookedLast = true → unseen h = none

namespace Loop.Settles

variable {l : Loop} {h : List Action}

theorem step (hl : l.Settles h) : l.step.Settles (h ++ l.actions .advance) := by
  have hclosed := hl.closed
  have hunseen := hl.unseen
  unfold Loop.step actions
  cases hphase : l.phase with
  | looking closed =>
    rw [hphase] at hclosed
    exact ⟨fun hknows => (l.session.isClosed_poll).trans (hclosed hknows), fun _ => unseen_poll h⟩
  -- Here it is read that the sender is gone; the look that settles is still to come.
  | reading => exact ⟨fun hknows => hknows, nofun⟩
  | waiting => exact ⟨nofun, nofun⟩
  | reporting closed rendered =>
    rw [hphase] at hclosed hunseen
    rw [List.append_nil]
    exact ⟨hclosed, hunseen⟩
  | testing closed =>
    rw [hphase] at hclosed hunseen
    rw [List.append_nil]
    cases closed with
    | true => exact ⟨fun _ => hclosed rfl, fun _ => hunseen rfl⟩
    | false => exact ⟨nofun, nofun⟩
  | ended =>
    rw [List.append_nil]
    exact hl

/-- As long as the sender is there, the loop does not think that it is gone. -/
theorem send (hl : l.Settles h) (hopen : l.session.isClosed = false) (x : Sending) :
    (l.move (.send x)).Settles (h ++ [.send x]) := by
  have hknows : ¬l.phase.knowsClosed = true := fun hknows => by
    rw [hl.closed hknows] at hopen
    cases hopen
  exact ⟨fun h => absurd h hknows, fun h => absurd (Phase.knowsClosed_of_hasLookedLast h) hknows⟩

theorem close (hl : l.Settles h) : (l.move .close).Settles (h ++ [.close]) :=
  ⟨fun _ => rfl, fun hlooked => (unseen_concat h rfl).trans (hl.unseen hlooked)⟩

end Loop.Settles

/-- All that holds of a loop after the moves of an orderly interleaving. -/
theorem Loop.follows_and_settles {s : Session} {first : Widget}
    (hopen : (ofSession s).Follows first []) {ms : List Move} (horderly : Orderly ms) :
    ((ofSession s).after ms).Follows first ((ofSession s).history ms) ∧
      ((ofSession s).after ms).Settles ((ofSession s).history ms) := by
  induction ms using List.reverseRecOn with
  | nil => exact ⟨hopen, nofun, nofun⟩
  | append_singleton ms m ih =>
    obtain ⟨hbefore, -, hlast⟩ := List.pairwise_append.mp horderly
    obtain ⟨hfollows, hsettles⟩ := ih hbefore
    rw [after_concat, history_concat]
    refine ⟨hfollows.move m, ?_⟩
    cases m with
    | advance => exact hsettles.step
    | close => exact hsettles.close
    | send x =>
      -- What is sent now is unseen, but in an orderly interleaving the sender has not gone yet.
      refine hsettles.send ?_ x
      rw [← Bool.not_eq_true, hfollows.session.closed, close_mem_history]
      intro hclose
      cases hlast _ hclose _ (List.mem_singleton.mpr rfl) rfl

/-- Once the sender is gone, every step brings the loop closer to its end. -/
theorem Loop.stepsLeft_step {l : Loop} (hclosed : l.session.isClosed = true) :
    l.step.session.isClosed = true ∧ l.step.phase.stepsLeft = l.phase.stepsLeft - 1 := by
  unfold step
  cases hphase : l.phase with
  | looking closed =>
    refine ⟨(l.session.isClosed_poll).trans hclosed, ?_⟩
    cases closed <;> rfl
  | reading =>
    refine ⟨hclosed, ?_⟩
    rw [hclosed]
    rfl
  | waiting => exact ⟨hclosed, rfl⟩
  | reporting closed rendered =>
    refine ⟨hclosed, ?_⟩
    cases closed <;> rfl
  | testing closed =>
    refine ⟨hclosed, ?_⟩
    cases closed <;> rfl
  | ended =>
    rw [hphase]
    exact ⟨hclosed, rfl⟩

theorem Loop.stepsLeft_after {l : Loop} (hclosed : l.session.isClosed = true) (n : Nat) :
    (l.after (List.replicate n .advance)).phase.stepsLeft = l.phase.stepsLeft - n := by
  induction n generalizing l with
  | zero => rfl
  | succ n ih =>
    obtain ⟨hstill, hless⟩ := stepsLeft_step hclosed
    rw [List.replicate_succ]
    refine (ih hstill).trans ?_
    rw [hless, Nat.sub_sub, Nat.add_comm 1 n]

/-- **The loop never misses what was published last.** In every interleaving with a sender that goes
in the end, the loop does not end before that, and it ends within eight steps after it. When it has
ended, what was published last has been found by a look, and if it can be rendered it is shown;
otherwise the last one found that can be rendered is shown, or the initial one. The reports are the
renderings of what looks have found, with versions from one on, and looks find every publication
once at most. -/
theorem Loop.last_published_found {initial : Layout} {s : Session}
    (hopen : Session.open? initial = .ok s) {ms : List Move} (horderly : Orderly ms) :
    let l := (ofSession s).after ms
    let h := (ofSession s).history ms
    (l.phase = .ended → .close ∈ ms) ∧
      (.close ∈ ms → (l.after (List.replicate 8 .advance)).phase = .ended) ∧
      (l.phase = .ended → unseen h = none ∧ (consumed h).getLast? = (sent ms).getLast? ∧
        ∀ c tree, (sent ms).getLast? = some c → c.render = .ok tree → l.session.tree = tree) ∧
      (∃ first, initial.render = .ok first ∧ l.session.tree = (rendered h).getLastD first) ∧
      (l.due = [] → l.reports.reverse = numbered (rendered h) ∧
        l.session.version = .ofNat l.reports.length ∧
        (l.reports.length < 2 ^ 64 → (l.session.version : Nat) = l.reports.length)) ∧
      (consumed h).Sublist (sent ms) := by
  intro l h
  obtain ⟨first, hfirst, hstart⟩ := Follows.of_open hopen
  obtain ⟨hfollows, hsettles⟩ := follows_and_settles hstart horderly
  have hclosed : l.session.isClosed = true ↔ .close ∈ ms :=
    hfollows.session.closed.trans (close_mem_history _)
  have hsent : published h = sent ms := published_history _ ms
  refine ⟨fun hended => ?_, fun hclose => ?_, fun hended => ?_, ⟨first, hfirst, ?_⟩, fun hdue => ?_,
    ?_⟩
  · rw [← hclosed]
    exact hsettles.closed (by rw [hended]; rfl)
  · have hleft := stepsLeft_after (hclosed.mpr hclose) 8
    rw [Nat.sub_eq_zero_of_le l.phase.stepsLeft_le] at hleft
    exact Phase.eq_ended_of_stepsLeft_eq_zero hleft
  · have hunseen : unseen h = none := hsettles.unseen (by rw [hended]; rfl)
    have hlast := getLast?_consumed_unseen h
    rw [hunseen, Option.toList_none, List.append_nil, hsent] at hlast
    refine ⟨hunseen, hlast, fun c tree hc hrender => ?_⟩
    rw [hfollows.session.tree, List.getLastD_eq_getLast?,
      getLast?_rendered h (hlast.trans hc) hrender, Option.getD_some]
  · exact hfollows.session.tree
  · have hreports := hfollows.reports
    rw [hdue, List.nil_append] at hreports
    have hlength : l.reports.reverse.length = l.reports.length := List.length_reverse
    have hversion : l.session.version = .ofNat l.reports.length := by
      rw [hfollows.session.version, ← hlength, hreports, numbered, List.length_mapIdx]
    refine ⟨hreports, hversion, fun hfits => ?_⟩
    rw [hversion, Version.toNat_ofNat hfits]
  · rw [← hsent]
    exact (List.sublist_append_left _ _).trans (consumed_unseen_sublist h)

/-- A layout with one text. -/
def lastWord : Layout where
  elements := [{ Config.Element.ofKind .text with text := some "bye" }]

/-- The sender publishes a text and goes, after the loop has read that it is there and before the
loop looks. -/
def lateGoodbye : List Move :=
  [.advance, .advance, .send (.publish lastWord), .close]

/-- The text is shown when the loop has ended. -/
theorem Loop.last_published_found_lateGoodbye :
    ∃ s, Session.open? {} = .ok s ∧ Orderly (lateGoodbye ++ List.replicate 8 .advance) ∧
      ((ofSession s).after (lateGoodbye ++ List.replicate 8 .advance)).phase = .ended ∧
      ((ofSession s).after (lateGoodbye ++ List.replicate 8 .advance)).session.tree.texts =
        ["bye"] := by
  obtain ⟨s, hs⟩ : ∃ s, Session.open? {} = .ok s := Outcome.failure?_eq_none.mp (by decide +kernel)
  have horderly : Orderly (lateGoodbye ++ List.replicate 8 .advance) := by
    simp [Orderly, lateGoodbye]
  have hended :
      ((ofSession s).after (lateGoodbye ++ List.replicate 8 .advance)).phase = .ended := by
    rw [after_append]
    exact (last_published_found hs (List.pairwise_append.mp horderly).1).2.1 (by simp [lateGoodbye])
  obtain ⟨-, -, hshown, -⟩ := last_published_found hs horderly
  obtain ⟨tree, hrender⟩ : ∃ tree, lastWord.render = .ok tree :=
    Outcome.failure?_eq_none.mp (by decide +kernel)
  have htexts : lastWord.render.toOption.map Widget.texts = some ["bye"] := by decide +kernel
  rw [hrender] at htexts
  refine ⟨s, hs, horderly, hended, ?_⟩
  rw [(hshown hended).2.2 lastWord tree rfl hrender]
  exact Option.some.inj htexts

end LayoutCompiler.Preview
