import LayoutCompiler.Preview.Loop
import LayoutCompiler.Proofs.Preview.History

/-
What a preview should render, and when. The messages between two wake-ups of its loop
form a window; what is rendered at a wake-up is the last configuration accepted in its
window, if that can be rendered. All of this is read off the list of messages alone:
messages that are not accepted do not matter (`renderings_of_accepted`).
-/

namespace LayoutCompiler.Preview

open Config (Layout)

/-! ### Wake-ups and the messages before them -/

/-- The time at which the loop should wake up, for the first time if `k` is zero. -/
def wakeUp (clock : Clock) (interval k : Nat) : Nat :=
  firstDelay * clock.millisecond + k * interval

theorem wakeUp_succ (clock : Clock) (interval k : Nat) :
    wakeUp clock interval (k + 1) = wakeUp clock interval k + interval := by
  rw [wakeUp, wakeUp, Nat.succ_mul, Nat.add_assoc]

/-- The time from which on messages wait for a wake-up: that of the wake-up before it. -/
def windowStart (clock : Clock) (interval : Nat) : (k : Nat) → Nat
  | 0 => 0
  | k + 1 => wakeUp clock interval k

/-- The messages that arrive between a wake-up and the one before it. -/
def window (clock : Clock) (interval : Nat) (messages : List TimedMessage) (k : Nat) :
    List TimedMessage :=
  messages.filter fun m =>
    windowStart clock interval k ≤ m.time && m.time < wakeUp clock interval k

/-- The messages that arrive after the wake-up before this one. -/
def later (clock : Clock) (interval : Nat) (messages : List TimedMessage) (k : Nat) :
    List TimedMessage :=
  messages.filter fun m => windowStart clock interval k ≤ m.time

/-- The configuration that the last message accepted since the wake-up before is. -/
def arrived (clock : Clock) (interval : Nat) (messages : List TimedMessage) (k : Nat) :
    Option Layout :=
  ((window clock interval messages k).filterMap fun m => layoutOf m.text).getLast?

/-- What is rendered at a wake-up, and its time. -/
def rendering (clock : Clock) (interval : Nat) (messages : List TimedMessage) (k : Nat) :
    Option (Nat × Widget) :=
  ((arrived clock interval messages k).bind fun l => l.render.toOption).map
    (wakeUp clock interval k, ·)

/-- What is rendered at the first `n` wake-ups. -/
def renderings (clock : Clock) (interval : Nat) (messages : List TimedMessage) (n : Nat) :
    List (Nat × Widget) :=
  (List.range n).filterMap (rendering clock interval messages)

/-- Renderings as they are reported: with versions from one on. -/
def versioned (ws : List (Nat × Widget)) : List (Nat × Report) :=
  ws.mapIdx fun i w => (w.1, ⟨w.2, .ofNat (i + 1)⟩)

section Windows

variable {clock : Clock} {interval : Nat} {messages others : List TimedMessage} {k n t : Nat}
  {w : Widget}

theorem windowStart_le (clock : Clock) (interval k : Nat) :
    windowStart clock interval k ≤ wakeUp clock interval k := by
  cases k with
  | zero => exact Nat.zero_le _
  | succ k => exact Nat.add_le_add_left (Nat.mul_le_mul_right _ (Nat.le_succ k)) _

theorem later_zero : later clock interval messages 0 = messages :=
  List.filter_eq_self.mpr fun _ _ => decide_eq_true (Nat.zero_le _)

/-- Messages in order from a time on are those before a later time, and then the others. -/
theorem filter_le_eq_append (hsorted : messages.Pairwise (·.time ≤ ·.time)) {a b : Nat}
    (hab : a ≤ b) : messages.filter (fun m => a ≤ m.time) =
      messages.filter (fun m => a ≤ m.time && m.time < b) ++
        messages.filter (fun m => b ≤ m.time) := by
  induction messages with
  | nil => rfl
  | cons m messages ih =>
    obtain ⟨hm, hsorted⟩ := List.pairwise_cons.mp hsorted
    by_cases hb : m.time < b
    · by_cases ha : a ≤ m.time
      · simpa [ha, hb, Nat.not_le.mpr hb] using ih hsorted
      · simpa [ha, hb, Nat.not_le.mpr hb] using ih hsorted
    · -- From here on no message is before the later time.
      have hlate : ∀ m' ∈ m :: messages, b ≤ m'.time := by
        refine List.forall_mem_cons.mpr ⟨Nat.le_of_not_lt hb, fun m' hm' => ?_⟩
        exact Nat.le_trans (Nat.le_of_not_lt hb) (hm m' hm')
      have hnone : (m :: messages).filter (fun m => a ≤ m.time && m.time < b) = [] :=
        List.filter_eq_nil_iff.mpr fun m' hm' => by simp [Nat.not_lt.mpr (hlate m' hm')]
      rw [hnone, List.nil_append]
      refine List.filter_congr fun m' hm' => ?_
      rw [decide_eq_decide]
      exact ⟨fun _ => hlate m' hm', Nat.le_trans hab⟩

/-- The messages that are still to come are those of the next window, and then those after it. -/
theorem later_eq_append (clock : Clock) (interval : Nat)
    (hsorted : messages.Pairwise (·.time ≤ ·.time)) (k : Nat) :
    later clock interval messages k =
      window clock interval messages k ++ later clock interval messages (k + 1) :=
  filter_le_eq_append hsorted (windowStart_le clock interval k)

theorem length_later (clock : Clock) (interval : Nat)
    (hsorted : messages.Pairwise (·.time ≤ ·.time)) (k : Nat) :
    (later clock interval messages k).length =
      (window clock interval messages k).length +
        (later clock interval messages (k + 1)).length := by
  rw [later_eq_append clock interval hsorted k, List.length_append]

theorem renderings_succ (clock : Clock) (interval : Nat) (messages : List TimedMessage) (k : Nat) :
    renderings clock interval messages (k + 1) =
      renderings clock interval messages k ++ (rendering clock interval messages k).toList := by
  rw [renderings, List.range_succ, List.filterMap_append, ← renderings]
  cases hk : rendering clock interval messages k <;> simp [hk]

/-- What is rendered at a wake-up is the configuration that was accepted last, if it can be. -/
theorem rendering_eq_some :
    rendering clock interval messages k = some (t, w) ↔ t = wakeUp clock interval k ∧
      ∃ l, arrived clock interval messages k = some l ∧ l.render = .ok w := by
  rw [rendering]
  cases arrived clock interval messages k with
  | none => simp
  | some l => cases hrender : l.render <;> simp [hrender, Except.toOption, and_comm, eq_comm]

theorem mem_renderings :
    (t, w) ∈ renderings clock interval messages n ↔ ∃ k < n, t = wakeUp clock interval k ∧
      ∃ l, arrived clock interval messages k = some l ∧ l.render = .ok w := by
  simp only [renderings, List.mem_filterMap, List.mem_range, rendering_eq_some]

/-- There is at most one rendering at each wake-up. -/
theorem pairwise_renderings (hpos : 0 < interval) (messages : List TimedMessage) (n : Nat) :
    ((renderings clock interval messages n).map Prod.fst).Pairwise (· < ·) := by
  refine List.pairwise_map.mpr (List.pairwise_lt_range.filterMap _ ?_)
  intro k k' hlt r hr r' hr'
  obtain ⟨ht, -⟩ := rendering_eq_some.mp hr
  obtain ⟨ht', -⟩ := rendering_eq_some.mp hr'
  rw [ht, ht']
  exact Nat.add_lt_add_left (Nat.mul_lt_mul_of_pos_right hlt hpos) _

/-! ### Messages that are not accepted -/

/-- Whether a message is accepted. -/
def TimedMessage.accepted (m : TimedMessage) : Bool :=
  (layoutOf m.text).isSome

theorem filterMap_accepted (p : TimedMessage → Bool) (messages : List TimedMessage) :
    ((messages.filter TimedMessage.accepted).filter p).filterMap (fun m => layoutOf m.text) =
      (messages.filter p).filterMap fun m => layoutOf m.text := by
  rw [List.filter_comm, List.filterMap_filter]
  congr 1
  funext m
  cases hm : layoutOf m.text <;> simp [TimedMessage.accepted, hm]

theorem arrived_of_accepted
    (h : others.filter TimedMessage.accepted = messages.filter TimedMessage.accepted) (k : Nat) :
    arrived clock interval others k = arrived clock interval messages k := by
  rw [arrived, arrived, window, window, ← filterMap_accepted _ others, h, filterMap_accepted]

/-- Messages that are not accepted do not matter. -/
theorem renderings_of_accepted
    (h : others.filter TimedMessage.accepted = messages.filter TimedMessage.accepted) (n : Nat) :
    renderings clock interval others n = renderings clock interval messages n := by
  have hrendering : rendering clock interval others = rendering clock interval messages := by
    funext k
    rw [rendering, rendering, arrived_of_accepted h k]
  rw [renderings, renderings, hrendering]

end Windows

/-! ### Versions -/

theorem versioned_concat (ws : List (Nat × Widget)) (w : Nat × Widget) :
    versioned (ws ++ [w]) = versioned ws ++ [(w.1, ⟨w.2, .ofNat (ws.length + 1)⟩)] :=
  List.mapIdx_concat

theorem map_versioned (ws : List (Nat × Widget)) :
    (versioned ws).map (fun r => (r.1, r.2.tree)) = ws ∧
      (versioned ws).map (·.2.version) = (List.range' 1 ws.length).map .ofNat := by
  induction ws using List.reverseRecOn with
  | nil => exact ⟨rfl, rfl⟩
  | append_singleton ws w ih =>
    rw [versioned_concat, List.map_append, List.map_append, ih.1, ih.2, List.length_append,
      List.length_singleton, List.range'_concat, List.map_append]
    simp [Nat.add_comm]

end LayoutCompiler.Preview
