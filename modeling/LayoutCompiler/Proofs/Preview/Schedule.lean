import LayoutCompiler.Proofs.Preview.Windows
import Mathlib.Logic.Function.Iterate

/-
The course of a preview over time, on any clock whose timers are on time. From one
wake-up of its loop to the next, the course takes one step for each message that comes
in between and five for the round (`Begins.next`); in the round after the sender has
gone the loop ends (`Begins.last`). The steps of a whole course follow by induction
(`Begins.ends`). So the loop wakes up after a delay and then at a fixed interval, and at
each wake-up it renders what the messages of its window say (`run_renders`). On an
instant at which the loop wakes up, the round comes before what the sender does.
-/

namespace LayoutCompiler.Preview

open Config (Layout)

/-! ### Steps on a clock -/

/-- What becomes of a message does not depend on the session. -/
theorem Session.fst_ingest (s s' : Session) (message : String) :
    (s.ingest message).1 = (s'.ingest message).1 := by
  unfold ingest
  split
  case h_1 => cases Layout.ofJson message <;> rfl
  case h_2 => rfl

/-- The reports of a look: what it has rendered. -/
def Session.lookReports (s : Session) : List Report :=
  if s.poll.1 = .rendered then [⟨s.poll.2.tree, s.poll.2.version⟩] else []

/-- A round looks once, reports what that renders, and is the last one if the sender is gone. -/
theorem Loop.round_of_waiting {l : Loop} (h : l.phase = .waiting) :
    l.round = ⟨l.session.poll.2, if l.session.isClosed then .ended else .waiting,
      l.session.lookReports ++ l.reports⟩ := by
  have hclosed := l.session.isClosed_poll
  by_cases hrendered : l.session.poll.1 = .rendered <;>
    simp [round, step, h, due, report, Session.lookReports, hrendered]

namespace Course

variable {clock : Clock} {interval : Nat} {c : Course}

/-- A loop that has ended does nothing more. -/
theorem step_of_ended (h : c.loop.phase = .ended) : c.step clock interval = c := by
  have hwaits : c.loop.phase ≠ .waiting := by simp [h]
  rw [step, if_neg hwaits, advance]
  simp [Loop.step, Loop.due, Loop.events, h]

theorem untilEnd_eq_iterate (clock : Clock) (interval fuel : Nat) (c : Course) :
    untilEnd clock interval fuel c = (step clock interval)^[fuel] c := by
  induction fuel generalizing c with
  | zero => rfl
  | succ fuel ih =>
    rw [untilEnd, Function.iterate_succ_apply]
    split
    case isTrue hended =>
      rw [step_of_ended hended, Function.iterate_fixed (step_of_ended hended)]
    case isFalse => exact ih _

/-- More steps than it takes to the end change nothing. -/
theorem untilEnd_of_ended {n fuel : Nat} (hn : n ≤ fuel)
    (h : ((step clock interval)^[n] c).loop.phase = .ended) :
    untilEnd clock interval fuel c = (step clock interval)^[n] c := by
  rw [untilEnd_eq_iterate, ← Nat.sub_add_cancel hn, Function.iterate_add_apply,
    Function.iterate_fixed (step_of_ended h)]

/-- A loop that waits handles what comes from the sender before the next tick. -/
theorem step_of_lt {a : Arrival} {coming : List Arrival} (hwaits : c.loop.phase = .waiting)
    (hcoming : c.coming = a :: coming) (ha : a.time < c.next) :
    c.step clock interval = { c.receive a with now := max c.now a.time, coming } := by
  simp [step, hwaits, hcoming, ha]

/-- A loop that waits goes on at its tick, if nothing comes from the sender before it. -/
theorem step_of_le (hwaits : c.loop.phase = .waiting)
    (hcoming : ∀ a ∈ c.coming, c.next ≤ a.time) :
    c.step clock interval = c.tick clock interval := by
  cases hlist : c.coming with
  | nil => simp [step, hwaits, hlist]
  | cons a coming =>
    rw [hlist] at hcoming
    have ha : ¬a.time < c.next := Nat.not_lt.mpr (hcoming a List.mem_cons_self)
    simp [step, hwaits, hlist, ha]

/-- A loop in the middle of a round goes on. -/
theorem step_of_ne_waiting (h : c.loop.phase ≠ .waiting) : c.step clock interval = c.advance :=
  if_neg h

/-- A course after the round at its next tick. -/
def round (clock : Clock) (interval : Nat) (c : Course) : Course :=
  { c with
    loop := c.loop.round
    now := c.next
    next := clock.nextTick c.next interval
    ticks := c.next :: c.ticks
    reports := c.session.lookReports.map (c.next, ·) ++ c.reports
    events := c.events ++ c.session.pollEvents }

/-- A round takes place at its tick. -/
theorem iterate_round (hwaits : c.loop.phase = .waiting)
    (hcoming : ∀ a ∈ c.coming, c.next ≤ a.time) :
    (step clock interval)^[5] c = c.round clock interval := by
  obtain ⟨⟨session, phase, reports⟩, now, next, coming, ingestions, ticks, timed, events⟩ := c
  obtain rfl : phase = .waiting := hwaits
  rw [Function.iterate_succ_apply, step_of_le rfl hcoming]
  -- In the middle of the round nothing is waited for.
  by_cases hrendered : session.poll.1 = .rendered <;>
    simp [step_of_ne_waiting, tick, advance, round, Loop.round, Loop.step, Loop.due, Loop.report,
      Loop.events, Course.session, Session.lookReports, hrendered]

end Course

/-! ### What is shown and reported -/

/-- What arrives, as a part of a history. -/
def Arrival.action : Arrival → Action
  | message m => .send (.ingest m.text)
  | goodbye _ => .close

/-- What becomes of what arrives, if it is a message. -/
def Arrival.ingestion? (s : Session) : Arrival → Option Ingestion
  | message m => some (s.ingest m.text).1
  | goodbye _ => none

theorem unseen_arrivals (h : List Action) (arrivals : List Arrival) :
    unseen (h ++ arrivals.map Arrival.action) =
      ((arrivals.filterMap fun a => a.action.published).getLast?).or (unseen h) := by
  induction arrivals using List.reverseRecOn with
  | nil => simp
  | append_singleton arrivals a ih =>
    have hother : a.action.isPoll = false := by cases a <;> rfl
    rw [List.map_append, ← List.append_assoc, List.map_singleton, unseen_concat _ hother, ih,
      List.filterMap_append]
    cases hpublished : a.action.published <;> simp [hpublished]

theorem filterMap_published_message (messages : List TimedMessage) :
    (messages.map Arrival.message).filterMap (fun a => a.action.published) =
      messages.filterMap fun m => layoutOf m.text := by
  rw [List.filterMap_map]
  rfl

/-- The session of a course shows what its history says, and the reports are the renderings so
far. -/
structure Course.Follows (c : Course) (first : Widget) (h : List Action)
    (ws : List (Nat × Widget)) : Prop where
  session : c.session.Follows first h
  reports : c.reports.reverse = versioned ws
  shown : ws.map Prod.snd = rendered h

namespace Course.Follows

variable {clock : Clock} {interval : Nat} {c : Course} {first : Widget} {h : List Action}
  {ws : List (Nat × Widget)}

theorem receive (hc : c.Follows first h ws) (a : Arrival) :
    (c.receive a).Follows first (h ++ [a.action]) ws := by
  cases a with
  | message m =>
    exact ⟨hc.session.send (.ingest m.text), hc.reports, by rw [Arrival.action,
      rendered_other h rfl, hc.shown]⟩
  | goodbye time =>
    exact ⟨hc.session.act .close, hc.reports, by rw [Arrival.action, rendered_other h rfl,
      hc.shown]⟩

/-- A round adds what its look renders to the renderings. -/
theorem round (hc : c.Follows first h ws) (hwaits : c.loop.phase = .waiting) :
    (c.round clock interval).Follows first (h ++ [.poll])
      (ws ++ (((unseen h).bind fun l => l.render.toOption).map (c.next, ·)).toList) := by
  have hpoll := hc.session.poll
  have hfound := rendered_poll h
  -- What the look finds and can be rendered is what it has rendered.
  have hlook : ((unseen h).bind fun l => l.render.toOption).toList =
      if c.session.poll.1 = .rendered then [c.session.poll.2.tree] else [] :=
    List.append_cancel_left (hfound.symm.trans hc.session.rendered_poll)
  have hsession : (c.round clock interval).session = c.session.poll.2 :=
    congrArg Loop.session (Loop.round_of_waiting hwaits)
  refine ⟨hsession ▸ hpoll, ?_, ?_⟩
  · rw [Course.round, List.reverse_append, hc.reports]
    by_cases hrendered : c.session.poll.1 = .rendered
    · rw [if_pos hrendered] at hlook
      have hversion : c.session.poll.2.version = .ofNat (ws.length + 1) := by
        rw [hpoll.version, hfound, hlook, ← hc.shown]
        simp
      rw [Session.lookReports, if_pos hrendered, Option.toList_eq_singleton_iff.mp hlook, hversion]
      exact (versioned_concat ws (c.next, c.session.poll.2.tree)).symm
    · rw [if_neg hrendered] at hlook
      rw [Session.lookReports, if_neg hrendered, Option.toList_eq_nil_iff.mp hlook]
      simp
  · rw [hfound, List.map_append, hc.shown]
    cases (unseen h).bind fun l => l.render.toOption <;> rfl

end Course.Follows

/-! ### From one wake-up to the next -/

section Steps

variable {clock : Clock} {interval closeAt : Nat} {messages : List TimedMessage} {s : Session}
  {c : Course} {k : Nat} {h : List Action} {rest : List Arrival}

/-- The loop waits for the `k`-th wake-up: at all those before it the renderings have been made, and
nothing that came was lost. -/
structure Course.Waits (c : Course) (clock : Clock) (interval : Nat) (messages : List TimedMessage)
    (s : Session) (k : Nat) (h : List Action) (rest : List Arrival) : Prop where
  phase : c.loop.phase = .waiting
  next : c.next = wakeUp clock interval k
  ticks : c.ticks.reverse = (List.range k).map (wakeUp clock interval)
  coming : c.coming = rest
  ingestions : c.ingestions.reverse ++ rest.filterMap (Arrival.ingestion? s) =
    messages.map fun m => (s.ingest m.text).1
  follows : c.Follows s.tree h (renderings clock interval messages k)

/-- The loop has ended at the given wake-up, after the sender has gone. -/
structure Course.Ends (c : Course) (clock : Clock) (interval : Nat) (messages : List TimedMessage)
    (s : Session) (last : Nat) (h : List Action) : Prop where
  phase : c.loop.phase = .ended
  now : c.now = wakeUp clock interval last
  ticks : c.ticks.reverse = (List.range (last + 1)).map (wakeUp clock interval)
  ingestions : c.ingestions.reverse = messages.map fun m => (s.ingest m.text).1
  closed : c.session.isClosed = true
  follows : c.Follows s.tree h (renderings clock interval messages (last + 1))

namespace Course.Waits

/-- What arrives before the wake-up is handled in a step. -/
theorem arrival {a : Arrival} (hc : c.Waits clock interval messages s k h (a :: rest))
    (ha : a.time < wakeUp clock interval k) :
    (c.step clock interval).Waits clock interval messages s k (h ++ [a.action]) rest := by
  rw [← hc.next] at ha
  rw [step_of_lt hc.phase hc.coming ha]
  have hfollows := hc.follows.receive a
  have hingestions := hc.ingestions
  cases a with
  | message m =>
    refine ⟨hc.phase, hc.next, hc.ticks, rfl, ?_, ⟨hfollows.1, hfollows.2, hfollows.3⟩⟩
    rw [← hingestions]
    simp [receive, ingest, Arrival.ingestion?, c.session.fst_ingest s]
  | goodbye time =>
    exact ⟨hc.phase, hc.next, hc.ticks, rfl, hingestions, ⟨hfollows.1, hfollows.2, hfollows.3⟩⟩

theorem arrivals {before : List Arrival} (hc : c.Waits clock interval messages s k h
      (before ++ rest)) (hbefore : ∀ a ∈ before, a.time < wakeUp clock interval k) :
    ((step clock interval)^[before.length] c).Waits clock interval messages s k
      (h ++ before.map Arrival.action) rest := by
  induction before generalizing c h with
  | nil => rwa [List.map_nil, List.append_nil]
  | cons a before ih =>
    obtain ⟨ha, hbefore⟩ := List.forall_mem_cons.mp hbefore
    have hrest := ih (hc.arrival ha) hbefore
    rwa [List.append_assoc] at hrest

/-- The loop goes on with a round, when what comes before its wake-up has been handled. -/
theorem iterate_round (hc : c.Waits clock interval messages s k h rest)
    (hrest : ∀ a ∈ rest, wakeUp clock interval k ≤ a.time) :
    (step clock interval)^[5] c = c.round clock interval := by
  rw [← hc.next, ← hc.coming] at hrest
  exact Course.iterate_round hc.phase hrest

theorem phase_round (hc : c.Waits clock interval messages s k h rest) :
    (c.round clock interval).loop.phase = if c.session.isClosed then .ended else .waiting :=
  congrArg Loop.phase (Loop.round_of_waiting hc.phase)

theorem ticks_round (hc : c.Waits clock interval messages s k h rest) :
    (c.round clock interval).ticks.reverse =
      (List.range (k + 1)).map (wakeUp clock interval) := by
  rw [Course.round, List.reverse_cons, hc.ticks, hc.next, List.range_succ, List.map_append,
    List.map_singleton]

theorem follows_round (hc : c.Waits clock interval messages s k h rest)
    (hunseen : unseen h = arrived clock interval messages k) :
    (c.round clock interval).Follows s.tree (h ++ [.poll])
      (renderings clock interval messages (k + 1)) := by
  have hround : (c.round clock interval).Follows _ _ _ := hc.follows.round hc.phase
  rwa [hunseen, hc.next, ← rendering, ← renderings_succ] at hround

/-- While the sender is there, the loop then waits for the next wake-up. -/
theorem next_round (hc : c.Waits clock interval messages s k h rest)
    (hclock : clock.OnTime interval) (hopen : c.session.isClosed = false)
    (hunseen : unseen h = arrived clock interval messages k) :
    (c.round clock interval).Waits clock interval messages s (k + 1) (h ++ [.poll]) rest where
  phase := by rw [hc.phase_round, hopen, if_neg Bool.false_ne_true]
  next := by rw [Course.round, hc.next, hclock.nextTick, wakeUp_succ]
  ticks := hc.ticks_round
  coming := hc.coming
  ingestions := hc.ingestions
  follows := hc.follows_round hunseen

/-- When the sender has gone, it then ends. -/
theorem last_round (hc : c.Waits clock interval messages s k h [])
    (hclosed : c.session.isClosed = true)
    (hunseen : unseen h = arrived clock interval messages k) :
    (c.round clock interval).Ends clock interval messages s k (h ++ [.poll]) where
  phase := by rw [hc.phase_round, hclosed, if_pos rfl]
  now := hc.next
  ticks := hc.ticks_round
  ingestions := (List.append_nil _).symm.trans hc.ingestions
  closed := by
    have hfollows := hc.follows_round hunseen
    rw [hfollows.session.closed, List.mem_append, ← hc.follows.session.closed]
    exact .inl hclosed
  follows := hc.follows_round hunseen

end Course.Waits

/-- What is found after the messages of a window is what has arrived in it. -/
theorem unseen_window (k : Nat) (hseen : unseen h = none) :
    unseen (h ++ ((window clock interval messages k).map .message).map Arrival.action) =
      arrived clock interval messages k := by
  rw [unseen_arrivals, hseen, Option.or_none, filterMap_published_message]
  rfl

theorem time_lt_of_mem_window {a : Arrival}
    (ha : a ∈ (window clock interval messages k).map Arrival.message) :
    a.time < wakeUp clock interval k := by
  obtain ⟨m, hm, rfl⟩ := List.mem_map.mp ha
  have hwindow := (List.mem_filter.mp hm).2
  exact of_decide_eq_true (Bool.and_eq_true_iff.mp hwindow).2

/-- What comes from the sender after the wake-up before this one. -/
def laterArrivals (clock : Clock) (interval closeAt : Nat) (messages : List TimedMessage)
    (k : Nat) : List Arrival :=
  (later clock interval messages k).map .message ++ [.goodbye closeAt]

/-- The loop waits for the `k`-th wake-up, and nothing has come since the one before. -/
structure Course.Begins (c : Course) (clock : Clock) (interval closeAt : Nat)
    (messages : List TimedMessage) (s : Session) (k : Nat) (h : List Action) : Prop where
  waits : c.Waits clock interval messages s k h (laterArrivals clock interval closeAt messages k)
  seen : unseen h = none
  present : .close ∉ h

namespace Course.Begins

/-- The messages of a window are handled one by one. -/
theorem window (hc : c.Begins clock interval closeAt messages s k h)
    (hsorted : messages.Pairwise (·.time ≤ ·.time)) :
    ((step clock interval)^[(window clock interval messages k).length] c).Waits clock interval
      messages s k (h ++ ((window clock interval messages k).map .message).map Arrival.action)
      (laterArrivals clock interval closeAt messages (k + 1)) := by
  have hwaits := hc.waits
  rw [laterArrivals, later_eq_append clock interval hsorted k, List.map_append,
    List.append_assoc] at hwaits
  have hwindow := hwaits.arrivals fun a ha => time_lt_of_mem_window ha
  rwa [List.length_map] at hwindow

/-- A window and the round after it, while the sender is there. -/
theorem next (hc : c.Begins clock interval closeAt messages s k h)
    (hclock : clock.OnTime interval) (hsorted : messages.Pairwise (·.time ≤ ·.time))
    (hlast : wakeUp clock interval k ≤ closeAt) :
    ∃ h', ((step clock interval)^[5 + (Preview.window clock interval messages k).length]
      c).Begins clock interval closeAt messages s (k + 1) h' := by
  have hwindow := hc.window hsorted
  have hrest : ∀ a ∈ laterArrivals clock interval closeAt messages (k + 1),
      wakeUp clock interval k ≤ a.time := by
    simp only [laterArrivals, List.forall_mem_append, List.forall_mem_map,
      List.forall_mem_singleton]
    exact ⟨fun m hm => of_decide_eq_true (List.mem_filter.mp hm).2, hlast⟩
  have hpresent : .close ∉ h ++
      ((Preview.window clock interval messages k).map Arrival.message).map Arrival.action := by
    simp [hc.present, Arrival.action]
  have hopen := Bool.eq_false_iff.mpr (mt hwindow.follows.session.closed.mp hpresent)
  rw [Function.iterate_add_apply, hwindow.iterate_round hrest]
  refine ⟨_, hwindow.next_round hclock hopen (unseen_window k hc.seen), unseen_poll _, ?_⟩
  simpa using hpresent

/-- The last window, the going of the sender, and the last round. -/
theorem last (hc : c.Begins clock interval closeAt messages s k h)
    (hsorted : messages.Pairwise (·.time ≤ ·.time))
    (hlast : closeAt < wakeUp clock interval k)
    (hlater : later clock interval messages (k + 1) = []) :
    ∃ h', ((step clock interval)^[6 + (Preview.window clock interval messages k).length]
      c).Ends clock interval messages s k h' := by
  have hwindow := hc.window hsorted
  rw [laterArrivals, hlater] at hwindow
  have hgone := hwindow.arrival hlast
  have hunseen := unseen_concat (h ++ ((Preview.window clock interval messages k).map
    .message).map Arrival.action) (a := .close) rfl
  rw [unseen_window k hc.seen] at hunseen
  have hclosed := hgone.follows.session.closed.mpr (by simp [Arrival.action])
  rw [Function.iterate_add_apply, Function.iterate_succ_apply,
    hgone.iterate_round fun a ha => absurd ha List.not_mem_nil]
  exact ⟨_, hgone.last_round hclosed hunseen⟩

end Course.Begins

/-- From any wake-up on, the loop goes on until the first one after the sender has gone. -/
theorem Course.Begins.ends {last : Nat} (hclock : clock.OnTime interval)
    (hsorted : messages.Pairwise (·.time ≤ ·.time))
    (hlast : ∀ k, k < last ↔ wakeUp clock interval k ≤ closeAt)
    (hlater : later clock interval messages (last + 1) = []) (n : Nat) (hn : k + n = last)
    (hc : c.Begins clock interval closeAt messages s k h) :
    ∃ h', ((step clock interval)^[5 * (n + 1) + 1 + (later clock interval messages k).length]
      c).Ends clock interval messages s last h' := by
  induction n generalizing k c h with
  | zero =>
    obtain rfl : k = last := hn
    have hafter : closeAt < wakeUp clock interval k :=
      Nat.not_le.mp (mt (hlast k).mpr (Nat.lt_irrefl k))
    rw [length_later clock interval hsorted, hlater]
    exact hc.last hsorted hafter hlater
  | succ n ih =>
    obtain ⟨h', hnext⟩ := hc.next hclock hsorted ((hlast k).mp (by omega))
    have hsteps : 5 * (n + 1 + 1) + 1 + (later clock interval messages k).length =
        5 * (n + 1) + 1 + (later clock interval messages (k + 1)).length +
          (5 + (Preview.window clock interval messages k).length) := by
      rw [length_later clock interval hsorted k]
      omega
    rw [hsteps, Function.iterate_add_apply]
    exact ih (by omega) hnext

end Steps

namespace Course.Follows

variable {c : Course} {first : Widget} {h : List Action} {ws : List (Nat × Widget)}

theorem times (hc : c.Follows first h ws) : c.reports.reverse.map Prod.fst = ws.map Prod.fst := by
  rw [hc.reports]
  conv_rhs => rw [← (map_versioned ws).1, List.map_map]
  rfl

theorem length_reports (hc : c.Follows first h ws) : c.reports.length = ws.length := by
  have hlength := congrArg List.length hc.reports
  rwa [List.length_reverse, versioned, List.length_mapIdx] at hlength

theorem versions (hc : c.Follows first h ws) :
    c.reports.reverse.map (·.2.version) = (List.range' 1 c.reports.length).map .ofNat := by
  rw [hc.reports, (map_versioned ws).2, hc.length_reports]

/-- The versions are one, two and so on, as far as eight bytes go. -/
theorem counted (hc : c.Follows first h ws) (hfits : c.reports.length < 2 ^ 64) :
    c.reports.reverse.map (fun r => (r.2.version : Nat)) = List.range' 1 c.reports.length := by
  have hversions := congrArg (List.map Version.toNat) hc.versions
  rw [List.map_map, List.map_map] at hversions
  refine hversions.trans ((List.map_congr_left fun n hn => ?_).trans (List.map_id _))
  have hrange := List.mem_range'_1.mp hn
  exact Version.toNat_ofNat (by omega)

theorem mem_reports (hc : c.Follows first h ws) {time : Nat} {tree : Widget} :
    (time, tree) ∈ c.reports.map (fun r => (r.1, r.2.tree)) ↔ (time, tree) ∈ ws := by
  rw [← List.mem_reverse, ← List.map_reverse, hc.reports, (map_versioned ws).1]

theorem version_eq (hc : c.Follows first h ws) :
    c.session.version = .ofNat c.reports.length := by
  rw [hc.session.version, ← hc.shown, List.length_map, hc.length_reports]

/-- What is shown is what was reported last. -/
theorem tree_eq (hc : c.Follows first h ws) :
    c.session.tree = (c.reports.head?.map (·.2.tree)).getD first := by
  have hlast : c.reports.head?.map (·.2.tree) = (ws.map Prod.snd).getLast? := by
    conv_rhs => rw [← (map_versioned ws).1, List.map_map, List.getLast?_map]
    rw [← List.getLast?_reverse, hc.reports]
    rfl
  rw [hlast, hc.session.tree, ← hc.shown, List.getLastD_eq_getLast?]

end Course.Follows

/-! ### The whole course -/

/-- What a course has come to whose last wake-up is the given one: at each wake-up the last message
accepted in its window has been rendered, if it can be, and the versions count from one. -/
structure Course.Scheduled (c : Course) (clock : Clock) (s : Session) (interval : Nat)
    (messages : List TimedMessage) (last : Nat) : Prop where
  phase : c.loop.phase = .ended
  ticks : c.ticks.reverse = (List.range (last + 1)).map (wakeUp clock interval)
  closed : c.session.isClosed = true
  ingestions : c.ingestions.reverse = messages.map fun m => (s.ingest m.text).1
  rendered : ∀ time tree, (time, tree) ∈ c.reports.map (fun r => (r.1, r.2.tree)) ↔
    ∃ k ≤ last, time = wakeUp clock interval k ∧
      ∃ l, arrived clock interval messages k = some l ∧ l.render = .ok tree
  once : (c.reports.reverse.map Prod.fst).Pairwise (· < ·)
  versions : c.reports.reverse.map (·.2.version) = (List.range' 1 c.reports.length).map .ofNat
  counted : c.reports.length < 2 ^ 64 →
    c.reports.reverse.map (fun r => (r.2.version : Nat)) = List.range' 1 c.reports.length
  tree : c.session.tree = (c.reports.head?.map (·.2.tree)).getD s.tree
  version : c.session.version = .ofNat c.reports.length

/-- There is a first wake-up after the sender has gone, and it is not later than `closeAt + 1`. -/
theorem exists_last (clock : Clock) {interval : Nat} (hpos : 0 < interval) (closeAt : Nat) :
    ∃ last ≤ closeAt + 1, ∀ k, k < last ↔ wakeUp clock interval k ≤ closeAt := by
  obtain hearly | hlate := Nat.lt_or_ge closeAt (firstDelay * clock.millisecond)
  · refine ⟨0, Nat.zero_le _, fun k => ?_⟩
    rw [wakeUp]
    omega
  · refine ⟨(closeAt - firstDelay * clock.millisecond) / interval + 1, ?_, fun k => ?_⟩
    · exact Nat.succ_le_succ (Nat.le_trans (Nat.div_le_self _ _) (Nat.sub_le _ _))
    · rw [Nat.lt_succ_iff, Nat.le_div_iff_mul_le hpos, wakeUp]
      omega

namespace Course

variable {clock : Clock} {interval closeAt last : Nat} {messages : List TimedMessage} {s : Session}
  {c : Course} {h : List Action}

/-- The loop sets out to wait for the first wake-up. -/
theorem begins_start {initial : Layout} (hopen : Session.open? initial = .ok s)
    (hclock : clock.OnTime interval) :
    (start clock interval closeAt messages s).Begins clock interval closeAt messages s 0 [] := by
  obtain ⟨first, -, hs⟩ := Session.Follows.of_open hopen
  obtain rfl : s.tree = first := hs.tree
  refine ⟨⟨rfl, ?_, rfl, ?_, ?_, ⟨hs, rfl, rfl⟩⟩, rfl, List.not_mem_nil⟩
  · rw [start, hclock.firstTick, Clock.firstAwake, hclock.awake, wakeUp, Nat.zero_mul,
      Nat.zero_add, Nat.add_zero]
  · rw [start, laterArrivals, later_zero]
  · rw [laterArrivals, later_zero, List.filterMap_append, List.filterMap_map]
    simp [start, Function.comp_def, Arrival.ingestion?]

/-- A course ends at the first wake-up after the sender has gone. -/
theorem run_ends {initial : Layout} (hopen : Session.open? initial = .ok s)
    (hclock : clock.OnTime interval) (hpos : 0 < interval)
    (hsorted : messages.Pairwise (·.time ≤ ·.time)) (hclose : ∀ m ∈ messages, m.time ≤ closeAt)
    (hbound : last ≤ closeAt + 1) (hlast : ∀ k, k < last ↔ wakeUp clock interval k ≤ closeAt) :
    ∃ c h, run interval closeAt messages s clock = .ok (wakeUp clock interval last, c) ∧
      c.Ends clock interval messages s last h := by
  have hafter : closeAt < wakeUp clock interval last :=
    Nat.not_le.mp (mt (hlast last).mpr (Nat.lt_irrefl last))
  have hlater : later clock interval messages (last + 1) = [] := by
    refine List.filter_eq_nil_iff.mpr fun m hm hlater => Nat.not_le.mpr hafter ?_
    exact Nat.le_trans (of_decide_eq_true hlater) (hclose m hm)
  obtain ⟨h, hends⟩ := (begins_start hopen hclock).ends hclock hsorted hlast hlater last
    (Nat.zero_add last)
  have henough : 5 * (last + 1) + 1 + (later clock interval messages 0).length ≤
      enough closeAt messages := by
    rw [later_zero, enough]
    omega
  refine ⟨_, h, ?_, hends⟩
  rw [run, if_neg hpos.ne', untilEnd_of_ended henough hends.phase]
  exact congrArg (fun time => Except.ok (time, _)) hends.now

theorem Ends.scheduled (hc : c.Ends clock interval messages s last h) (hpos : 0 < interval) :
    c.Scheduled clock s interval messages last where
  phase := hc.phase
  ticks := hc.ticks
  closed := hc.closed
  ingestions := hc.ingestions
  rendered time tree := by
    rw [hc.follows.mem_reports, mem_renderings]
    simp only [Nat.lt_succ_iff]
  once := by
    rw [hc.follows.times]
    exact pairwise_renderings hpos messages _
  versions := hc.follows.versions
  counted := hc.follows.counted
  tree := hc.follows.tree_eq
  version := hc.follows.version_eq

/-- **What a preview renders, and when.** On a clock with its timers on time, the loop wakes up
after the first delay and then at fixed intervals, handles before each wake-up the messages that
have arrived in its window, and ends at the first wake-up after the sender has gone. It renders at a
wake-up if and only if a message has been accepted in its window and the last one that was can be
rendered: that is then shown, with the next version. Messages that are not accepted change neither
what is rendered, nor the versions, nor when the loop ends. -/
theorem run_renders {initial : Layout} (hopen : Session.open? initial = .ok s)
    (hclock : clock.OnTime interval) (hpos : 0 < interval)
    (hsorted : messages.Pairwise (·.time ≤ ·.time)) (hclose : ∀ m ∈ messages, m.time ≤ closeAt) :
    ∃ last c, initial.render = .ok s.tree ∧
      (∀ k, k < last ↔ wakeUp clock interval k ≤ closeAt) ∧
      run interval closeAt messages s clock = .ok (wakeUp clock interval last, c) ∧
      c.Scheduled clock s interval messages last ∧
      (∀ m : TimedMessage, (s.ingest m.text).1 = .published ↔ m.accepted = true) ∧
      ∀ others : List TimedMessage, others.Pairwise (·.time ≤ ·.time) →
        (∀ m ∈ others, m.time ≤ closeAt) →
        others.filter TimedMessage.accepted = messages.filter TimedMessage.accepted →
        ∃ c', run interval closeAt others s clock = .ok (wakeUp clock interval last, c') ∧
          c'.reports = c.reports ∧ c'.session.tree = c.session.tree ∧
          c'.session.version = c.session.version := by
  obtain ⟨first, hfirst, hs⟩ := Session.Follows.of_open hopen
  obtain rfl : s.tree = first := hs.tree
  obtain ⟨last, hbound, hlast⟩ := exists_last clock hpos closeAt
  obtain ⟨c, h, hrun, hc⟩ := run_ends hopen hclock hpos hsorted hclose hbound hlast
  refine ⟨last, c, hfirst, hlast, hrun, hc.scheduled hpos, ?_, ?_⟩
  · intro m
    rw [Session.fst_ingest_eq_published, TimedMessage.accepted, Option.isSome_iff_exists]
  · -- Both courses report the renderings of the windows, and these are the same.
    intro others hothers hcloseOthers heq
    obtain ⟨c', h', hrun', hc'⟩ := run_ends hopen hclock hpos hothers hcloseOthers hbound hlast
    have hfollows := hc'.follows
    rw [renderings_of_accepted heq] at hfollows
    have hshown := hfollows.shown.symm.trans hc.follows.shown
    refine ⟨c', hrun', ?_, ?_, ?_⟩
    · exact List.reverse_injective (hfollows.reports.trans hc.follows.reports.symm)
    · exact hfollows.session.tree.trans (hshown ▸ hc.follows.session.tree.symm)
    · exact hfollows.session.version.trans (hshown ▸ hc.follows.session.version.symm)

/-- A clock that counts microseconds. -/
def microseconds : Clock := .exact 1000

/-- Two texts arrive before the first wake-up, and later what is no configuration and a color that
is none. -/
def overtaken : List TimedMessage :=
  [⟨10000, "\x7b\"elements\":[\x7b\"type\":\"text\",\"text\":\"a\"\x7d]\x7d"⟩,
    ⟨20001, "\x7b\"elements\":[\x7b\"type\":\"text\",\"text\":\"b\"\x7d]\x7d"⟩,
    ⟨120000, "hello"⟩, ⟨210000, "\x7b\"backgroundColor\":\"lavender\"\x7d"⟩]

/-- The second text is rendered at the first wake-up, and nothing at the fourth. -/
theorem run_renders_overtaken :
    ∃ s c, Session.open? {} = .ok s ∧ run 50500 260000 overtaken s microseconds = .ok (302000, c) ∧
      (∃ w : Widget, w.texts = ["b"] ∧ (100000, w) ∈ c.reports.map fun r => (r.1, r.2.tree)) ∧
      ∀ w, (251500, w) ∉ c.reports.map fun r => (r.1, r.2.tree) := by
  obtain ⟨s, hs⟩ : ∃ s, Session.open? {} = .ok s := Outcome.failure?_eq_none.mp (by decide +kernel)
  have hclock : microseconds.OnTime 50500 := Clock.onTime_exact _ _
  have hsorted : overtaken.Pairwise (·.time ≤ ·.time) := by decide
  have hclose : ∀ m ∈ overtaken, m.time ≤ 260000 := by decide
  have hpos : 0 < 50500 := by decide
  obtain ⟨last, c, -, hlast, hrun, hscheduled, -, -⟩ :=
    run_renders hs hclock hpos hsorted hclose
  obtain rfl : last = 4 := by
    have hbefore := hlast 3
    have hafter := hlast 4
    simp only [wakeUp, firstDelay, microseconds, Clock.exact] at hbefore hafter
    omega
  refine ⟨s, c, hs, hrun, ?_, ?_⟩
  · have hfirst : (rendering microseconds 50500 overtaken 0).map (·.2.texts) = some ["b"] := by
      decide +kernel
    obtain ⟨⟨time, w⟩, hw, htexts⟩ := Option.map_eq_some_iff.mp hfirst
    obtain ⟨rfl, hrendered⟩ := rendering_eq_some.mp hw
    exact ⟨w, htexts, (hscheduled.rendered _ _).mpr ⟨0, by decide, rfl, hrendered⟩⟩
  · intro w hw
    have hnone : (rendering microseconds 50500 overtaken 3).isNone = true := by decide +kernel
    obtain ⟨k, -, htime, hrendered⟩ := (hscheduled.rendered _ _).mp hw
    obtain rfl : k = 3 := by
      change 251500 = 100 * 1000 + k * 50500 at htime
      omega
    have hsome : rendering microseconds 50500 overtaken 3 = some (251500, w) :=
      rendering_eq_some.mpr ⟨htime, hrendered⟩
    rw [Option.isNone_iff_eq_none.mp hnone] at hsome
    cases hsome

end Course

end LayoutCompiler.Preview
