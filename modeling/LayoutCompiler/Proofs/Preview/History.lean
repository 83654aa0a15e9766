import LayoutCompiler.Preview.Session
import LayoutCompiler.Proofs.Outcome
import Mathlib.Algebra.Group.Nat.Defs
import Mathlib.Data.List.DropRight

/-
What a session shows, as a function of what has happened to it. A look finds what was
published last since the look before it (`unseen`), and the configurations that looks
have found (`consumed`) determine the tree and the version. `Follows` says so of a
session and a history; it holds of a session that has just been opened, every action
keeps it, and so it holds after every history (`shows_history`).
-/

namespace LayoutCompiler.Preview

open Config (Layout)

/-! ### Histories -/

/-- What a sender does while it is there. -/
inductive Sending where
  | publish (l : Layout)
  | ingest (message : String)

/-- What happens to a session. -/
inductive Action where
  | send (x : Sending)
  | poll
  | close

/-- The configuration that a message is, if it starts with an opening brace and can be read. -/
def layoutOf (message : String) : Option Layout :=
  if message.toList.head? = some '\x7b' then (Layout.ofJson message).toOption else none

theorem layoutOf_eq_some {message : String} {l : Layout} :
    layoutOf message = some l ↔
      message.toList.head? = some '\x7b' ∧ Layout.ofJson message = .ok l := by
  unfold layoutOf
  cases Layout.ofJson message <;> simp [Except.toOption]

/-- The configuration that is published. -/
def Sending.published : Sending → Option Layout
  | publish l => some l
  | ingest message => layoutOf message

namespace Action

/-- The configuration that is published. -/
def published : Action → Option Layout
  | send x => x.published
  | poll | close => none

def isPoll : Action → Bool
  | poll => true
  | send _ | close => false

theorem eq_poll_or_isPoll_eq_false (a : Action) : a = .poll ∨ a.isPoll = false := by
  cases a <;> simp [isPoll]

end Action

/-- The configurations that were published, in order. -/
def published (h : List Action) : List Layout :=
  h.filterMap Action.published

/-- What a look after the history finds: what was published last since the look before it. -/
def unseen (h : List Action) : Option Layout :=
  (published (h.rtakeWhile fun a => !a.isPoll)).getLast?

/-- What the looks of a history find, in order, if `past` has happened before it. -/
def consumedAfter (past : List Action) : List Action → List Layout
  | [] => []
  | a :: h =>
    (if a.isPoll then unseen past else none).toList ++ consumedAfter (past ++ [a]) h

/-- The configurations that the looks of a history find, in order. -/
def consumed (h : List Action) : List Layout :=
  consumedAfter [] h

/-- The renderings of the configurations that looks find and that can be rendered. -/
def rendered (h : List Action) : List Widget :=
  (consumed h).filterMap fun l => l.render.toOption

/-- What comes of a look that finds the given configuration. -/
def Polling.ofFound : Option Layout → Polling
  | none => .nothingNew
  | some l =>
    match l.render with
    | .ok _ => .rendered
    | .error e => .failed e

namespace Session

/-- A session after the sender has done something. -/
def send (s : Session) : Sending → Session
  | .publish l => s.publish l
  | .ingest message => (s.ingest message).2

/-- A session after something has happened to it. -/
def act (s : Session) : Action → Session
  | .send x => s.send x
  | .poll => s.poll.2
  | .close => s.close

/-- A session after a history. -/
def after (s : Session) (h : List Action) : Session :=
  h.foldl act s

/-- The configuration in the slot, if it has not been looked at. -/
def news (s : Session) : Option Layout :=
  if s.slot.pending then some s.slot.latest else none

end Session

/-! ### What looks find -/

section Looks

variable (h h' : List Action) {a : Action}

theorem published_append : published (h ++ h') = published h ++ published h' :=
  List.filterMap_append

theorem published_singleton (a : Action) : published [a] = a.published.toList := by
  cases ha : a.published <;> simp [published, ha]

theorem published_concat (a : Action) :
    published (h ++ [a]) = published h ++ a.published.toList := by
  rw [published_append, published_singleton]

/-- A look leaves nothing unseen. -/
theorem unseen_poll : unseen (h ++ [.poll]) = none := by
  rw [unseen, List.rtakeWhile_concat_neg _ _ _ (by decide)]
  rfl

/-- What is published becomes what the next look finds. -/
theorem unseen_concat (ha : a.isPoll = false) :
    unseen (h ++ [a]) = a.published.or (unseen h) := by
  have hkept : (!a.isPoll) = true := by rw [ha, Bool.not_false]
  rw [unseen, List.rtakeWhile_concat_pos (fun a => !a.isPoll) h a hkept, published_concat]
  cases a.published <;> simp [unseen]

/-- A look finds nothing that was published before the look before it. -/
theorem unseen_poll_append : unseen (h ++ .poll :: h') = unseen h' := by
  induction h' using List.reverseRecOn with
  | nil => exact unseen_poll h
  | append_singleton h' a ih =>
    rw [← List.cons_append, ← List.append_assoc]
    rcases a.eq_poll_or_isPoll_eq_false with rfl | ha
    · rw [unseen_poll, unseen_poll]
    · rw [unseen_concat _ ha, unseen_concat _ ha, ih]

theorem consumedAfter_append (past : List Action) :
    consumedAfter past (h ++ h') = consumedAfter past h ++ consumedAfter (past ++ h) h' := by
  induction h generalizing past with
  | nil => simp [consumedAfter]
  | cons a h ih => simp [consumedAfter, ih]

theorem consumed_concat (a : Action) :
    consumed (h ++ [a]) = consumed h ++ (if a.isPoll then unseen h else none).toList := by
  simp [consumed, consumedAfter_append, consumedAfter]

theorem consumed_poll : consumed (h ++ [.poll]) = consumed h ++ (unseen h).toList :=
  consumed_concat h .poll

theorem consumed_other (ha : a.isPoll = false) : consumed (h ++ [a]) = consumed h := by
  rw [consumed_concat, ha]
  exact List.append_nil _

/-- Every publication is found by one look at most, and in order. -/
theorem consumed_unseen_sublist : (consumed h ++ (unseen h).toList).Sublist (published h) := by
  induction h using List.reverseRecOn with
  | nil => exact List.nil_sublist _
  | append_singleton h a ih =>
    rw [published_concat]
    rcases a.eq_poll_or_isPoll_eq_false with rfl | ha
    · rw [consumed_poll, unseen_poll, Option.toList_none, List.append_nil]
      exact ih.trans (List.sublist_append_left _ _)
    · rw [consumed_other h ha, unseen_concat h ha]
      cases a.published with
      | none => exact ih.trans (List.sublist_append_left _ _)
      | some l => exact ((List.sublist_append_left _ _).trans ih).append (List.Sublist.refl [l])

/-- What was published last has been found last or is still to be found. -/
theorem getLast?_consumed_unseen :
    (consumed h ++ (unseen h).toList).getLast? = (published h).getLast? := by
  induction h using List.reverseRecOn with
  | nil => rfl
  | append_singleton h a ih =>
    rw [published_concat]
    rcases a.eq_poll_or_isPoll_eq_false with rfl | ha
    · rw [consumed_poll, unseen_poll, Option.toList_none, List.append_nil, ih]
      exact congrArg List.getLast? (List.append_nil _).symm
    · rw [consumed_other h ha, unseen_concat h ha]
      cases a.published with
      | none => simpa using ih
      | some l => simp

theorem rendered_poll :
    rendered (h ++ [.poll]) =
      rendered h ++ ((unseen h).bind fun l => l.render.toOption).toList := by
  rw [rendered, consumed_poll, List.filterMap_append, rendered]
  cases unseen h with
  | none => rfl
  | some l => cases hl : l.render.toOption <;> simp [hl]

/-- What was found last and can be rendered is what was rendered last. -/
theorem getLast?_rendered {l : Layout} {tree : Widget} (hlast : (consumed h).getLast? = some l)
    (hrender : l.render = .ok tree) : (rendered h).getLast? = some tree := by
  obtain ⟨earlier, hconsumed⟩ := List.getLast?_eq_some_iff.mp hlast
  rw [rendered, hconsumed, List.filterMap_append]
  simp [hrender, Except.toOption]

theorem rendered_other (ha : a.isPoll = false) : rendered (h ++ [a]) = rendered h := by
  rw [rendered, consumed_other h ha, rendered]

end Looks

/-! ### Sessions -/

/-- Versions are numbers as long as these fit in eight bytes. -/
theorem Version.toNat_ofNat {n : Nat} (h : n < 2 ^ 64) : (ofNat n).toNat = n :=
  UInt64.toNat_ofNat_of_lt' h

namespace Session

variable (s : Session)

theorem after_append (h h' : List Action) : s.after (h ++ h') = (s.after h).after h' :=
  List.foldl_append

theorem after_concat (h : List Action) (a : Action) : s.after (h ++ [a]) = (s.after h).act a :=
  List.foldl_concat act s a h

/-- Handling a message publishes the configuration that it is. -/
theorem ingest_of_layoutOf_eq_some {message : String} {l : Layout}
    (h : layoutOf message = some l) : s.ingest message = (.published, s.publish l) := by
  obtain ⟨hfirst, hread⟩ := layoutOf_eq_some.mp h
  obtain ⟨rest, hrest⟩ := List.head?_eq_some_iff.mp hfirst
  rw [ingest, hrest, hread]
  rfl

/-- A message that is no configuration changes nothing. -/
theorem ingest_of_layoutOf_eq_none {message : String} (h : layoutOf message = none) :
    (s.ingest message).1 ≠ .published ∧ (s.ingest message).2 = s := by
  unfold ingest
  split
  case h_1 rest hrest =>
    cases hread : Layout.ofJson message with
    | error e => simp
    | ok l =>
      have hsome : layoutOf message = some l := layoutOf_eq_some.mpr ⟨by rw [hrest]; rfl, hread⟩
      rw [h] at hsome
      cases hsome
  case h_2 => simp

theorem fst_ingest_eq_published {message : String} :
    (s.ingest message).1 = .published ↔ ∃ l, layoutOf message = some l := by
  cases h : layoutOf message with
  | none => simp [s.ingest_of_layoutOf_eq_none h]
  | some l => simp [s.ingest_of_layoutOf_eq_some h]

theorem send_eq (x : Sending) : s.send x = x.published.elim s s.publish := by
  cases x with
  | publish l => rfl
  | ingest message =>
    rw [Sending.published]
    cases h : layoutOf message with
    | none => exact (s.ingest_of_layoutOf_eq_none h).2
    | some l => exact congrArg Prod.snd (s.ingest_of_layoutOf_eq_some h)

theorem tree_send (x : Sending) : (s.send x).tree = s.tree := by
  rw [send_eq]
  cases x.published <;> rfl

theorem version_send (x : Sending) : (s.send x).version = s.version := by
  rw [send_eq]
  cases x.published <;> rfl

theorem news_publish (l : Layout) : (s.publish l).news = some l :=
  if_pos rfl

/-- A session whose slot has been looked at. -/
def seen : Session :=
  { s with slot := { s.slot with pending := false } }

theorem news_seen : s.seen.news = none :=
  if_neg Bool.false_ne_true

variable {s}

theorem poll_of_news_eq_none (h : s.news = none) : s.poll = (.nothingNew, s) := by
  have hpending : ¬s.slot.pending = true := fun hpending => by
    rw [news, if_pos hpending] at h
    cases h
  rw [poll, if_neg hpending]

theorem slot_of_news_eq_some {l : Layout} (h : s.news = some l) :
    s.slot.pending = true ∧ s.slot.latest = l := by
  unfold news at h
  split at h
  case isTrue hpending => exact ⟨hpending, Option.some.inj h⟩
  case isFalse => cases h

theorem poll_of_render_eq_ok {l : Layout} {tree : Widget} (h : s.news = some l)
    (hrender : l.render = .ok tree) :
    s.poll = (.rendered, { s.seen with tree, version := s.version.next }) := by
  obtain ⟨hpending, hlatest⟩ := slot_of_news_eq_some h
  rw [poll, if_pos hpending, hlatest, hrender]
  rfl

theorem poll_of_render_eq_error {l : Layout} {e : Color.Error} (h : s.news = some l)
    (hrender : l.render = .error e) : s.poll = (.failed e, s.seen) := by
  obtain ⟨hpending, hlatest⟩ := slot_of_news_eq_some h
  rw [poll, if_pos hpending, hlatest, hrender]
  rfl

variable (s)

theorem isClosed_poll : s.poll.2.isClosed = s.isClosed := by
  cases hnews : s.news with
  | none => rw [poll_of_news_eq_none hnews]
  | some l =>
    cases hrender : l.render with
    | error e =>
      rw [poll_of_render_eq_error hnews hrender]
      rfl
    | ok tree =>
      rw [poll_of_render_eq_ok hnews hrender]
      rfl

/-- What comes of a look depends only on what it finds. -/
theorem fst_poll : s.poll.1 = Polling.ofFound s.news := by
  cases hnews : s.news with
  | none => exact congrArg Prod.fst (poll_of_news_eq_none hnews)
  | some l =>
    cases hrender : l.render with
    | error e => rw [poll_of_render_eq_error hnews hrender, Polling.ofFound, hrender]
    | ok tree => rw [poll_of_render_eq_ok hnews hrender, Polling.ofFound, hrender]

end Session

/-! ### After every history -/

/-- A session shows what the looks of a history have found last, or `first`, and holds what the next
look will find. -/
structure Session.Follows (s : Session) (first : Widget) (h : List Action) : Prop where
  news : s.news = unseen h
  tree : s.tree = (rendered h).getLastD first
  version : s.version = .ofNat (rendered h).length
  closed : s.isClosed = true ↔ .close ∈ h

namespace Session.Follows

variable {s : Session} {first : Widget} {h : List Action}

theorem of_open {initial : Layout} (hopen : Session.open? initial = .ok s) :
    ∃ first, initial.render = .ok first ∧ s.Follows first [] := by
  obtain ⟨first, hfirst, rfl⟩ := Json.exists_of_map_eq_ok hopen
  exact ⟨first, hfirst, rfl, rfl, rfl, by simp [isClosed]⟩

/-- What is no look changes at most what is in the slot. -/
theorem other {s' : Session} {a : Action} (hs : s.Follows first h) (ha : a.isPoll = false)
    (hnews : s'.news = a.published.or s.news) (htree : s'.tree = s.tree)
    (hversion : s'.version = s.version)
    (hclosed : s'.isClosed = true ↔ s.isClosed = true ∨ a = .close) :
    s'.Follows first (h ++ [a]) where
  news := by rw [hnews, unseen_concat h ha, hs.news]
  tree := by rw [htree, rendered_other h ha, hs.tree]
  version := by rw [hversion, rendered_other h ha, hs.version]
  closed := by rw [hclosed, hs.closed, List.mem_append, List.mem_singleton, eq_comm (a := a)]

theorem send (hs : s.Follows first h) (x : Sending) :
    (s.send x).Follows first (h ++ [.send x]) := by
  rw [send_eq]
  cases hx : x.published with
  | none => exact hs.other rfl (by simp [Action.published, hx]) rfl rfl (by simp)
  | some l =>
    refine hs.other rfl ?_ rfl rfl (by simp [isClosed, publish])
    rw [Action.published, hx]
    exact s.news_publish l

/-- A look that renders adds what is then shown to what has been rendered. -/
theorem rendered_poll (hs : s.Follows first h) :
    rendered (h ++ [.poll]) =
      rendered h ++ if s.poll.1 = .rendered then [s.poll.2.tree] else [] := by
  have hnews := hs.news
  rw [Preview.rendered_poll]
  cases hunseen : unseen h with
  | none => simp [poll_of_news_eq_none (hnews.trans hunseen)]
  | some l =>
    cases hrender : l.render with
    | error e => simp [poll_of_render_eq_error (hnews.trans hunseen) hrender, hrender,
        Except.toOption]
    | ok tree => simp [poll_of_render_eq_ok (hnews.trans hunseen) hrender, hrender,
        Except.toOption]

theorem poll (hs : s.Follows first h) : s.poll.2.Follows first (h ++ [.poll]) := by
  have hnews := hs.news
  have hclosed : s.isClosed = true ↔ .close ∈ h ++ [.poll] := by simp [hs.closed]
  have hrendered := hs.rendered_poll
  -- The slot is emptied if anything is found, and the tree changes only if that can be rendered.
  cases hunseen : unseen h with
  | none =>
    rw [hunseen] at hnews
    rw [poll_of_news_eq_none hnews] at hrendered ⊢
    have hsame : rendered (h ++ [.poll]) = rendered h := by simp [hrendered]
    exact ⟨by rw [unseen_poll, hnews], hsame ▸ hs.tree, hsame ▸ hs.version, hclosed⟩
  | some l =>
    rw [hunseen] at hnews
    have hseen : s.seen.news = unseen (h ++ [.poll]) := by rw [unseen_poll, news_seen]
    cases hrender : l.render with
    | error e =>
      rw [poll_of_render_eq_error hnews hrender] at hrendered ⊢
      have hsame : rendered (h ++ [.poll]) = rendered h := by simp [hrendered]
      exact ⟨hseen, hsame ▸ hs.tree, hsame ▸ hs.version, hclosed⟩
    | ok tree =>
      rw [poll_of_render_eq_ok hnews hrender] at hrendered ⊢
      have hmore : rendered (h ++ [.poll]) = rendered h ++ [tree] := by simp [hrendered]
      exact ⟨hseen, by simp [hmore], by simp [hmore, hs.version, Version.next_ofNat], hclosed⟩

/-- Every action keeps what a session shows in step with its history. -/
theorem act (hs : s.Follows first h) (a : Action) : (s.act a).Follows first (h ++ [a]) := by
  cases a with
  | send x => exact hs.send x
  | poll => exact hs.poll
  | close => exact hs.other rfl rfl rfl rfl (by simp [Session.act, close, isClosed])

theorem after (hs : s.Follows first []) (h : List Action) : (s.after h).Follows first h := by
  induction h using List.reverseRecOn with
  | nil => exact hs
  | append_singleton h a ih =>
    rw [after_concat]
    exact ih.act a

end Session.Follows

/-- **What a session shows is a function of its history.** The tree is the rendering of the last
configuration that a look has found and that can be rendered, and the version counts these, as far
as eight bytes go. A look renders if and only if it finds one that can be rendered; one that cannot
be rendered changes neither tree nor version, and no later look finds it again, nor anything else
that was published before a look. A message is published if and only if it starts with an opening
brace and is a configuration, and then it does what publishing that does; any other message might as
well not have been sent. -/
theorem Session.shows_history {initial : Layout} {s : Session}
    (hopen : Session.open? initial = .ok s) (h : List Action) :
    (∃ first, initial.render = .ok first ∧ (s.after h).tree = (rendered h).getLastD first) ∧
      (s.after h).version = .ofNat (rendered h).length ∧
      ((rendered h).length < 2 ^ 64 → ((s.after h).version : Nat) = (rendered h).length) ∧
      ((s.after h).poll.1 = .rendered ↔ ∃ l tree, unseen h = some l ∧ l.render = .ok tree) ∧
      (∀ l e, unseen h = some l → l.render = .error e →
        (s.after (h ++ [.poll])).tree = (s.after h).tree ∧
          (s.after (h ++ [.poll])).version = (s.after h).version) ∧
      (∀ later, (s.after (h ++ .poll :: later)).poll.1 = .ofFound (unseen later)) ∧
      (∀ message, ((s.after h).ingest message).1 = .published ↔
        message.toList.head? = some '\x7b' ∧ ∃ l, Layout.ofJson message = .ok l) ∧
      (∀ message l, message.toList.head? = some '\x7b' → Layout.ofJson message = .ok l →
        (s.after h).ingest message = (.published, (s.after h).publish l)) ∧
      (∀ message later, ((s.after h).ingest message).1 ≠ .published →
        s.after (h ++ .send (.ingest message) :: later) = s.after (h ++ later)) := by
  obtain ⟨first, hfirst, hs⟩ := Follows.of_open hopen
  have hafter := hs.after h
  refine ⟨⟨first, hfirst, hafter.tree⟩, hafter.version, fun hfits => ?_, ?_, ?_, ?_, ?_, ?_, ?_⟩
  · rw [hafter.version, Version.toNat_ofNat hfits]
  · rw [fst_poll, hafter.news]
    cases unseen h with
    | none => simp [Polling.ofFound]
    | some l => cases hrender : l.render <;> simp [Polling.ofFound, hrender]
  · intro l e hunseen hrender
    rw [after_concat, act, poll_of_render_eq_error (hafter.news.trans hunseen) hrender]
    exact ⟨rfl, rfl⟩
  · intro later
    rw [fst_poll, (hs.after _).news, unseen_poll_append]
  · intro message
    rw [fst_ingest_eq_published]
    simp only [layoutOf_eq_some, exists_and_left]
  · intro message l hbrace hread
    exact ingest_of_layoutOf_eq_some _ (layoutOf_eq_some.mpr ⟨hbrace, hread⟩)
  · intro message later hrefused
    rw [Ne, fst_ingest_eq_published] at hrefused
    have hnone : layoutOf message = none := by
      cases hlayout : layoutOf message with
      | none => rfl
      | some l => exact absurd ⟨l, hlayout⟩ hrefused
    have hsame : (s.after h).act (.send (.ingest message)) = s.after h :=
      (ingest_of_layoutOf_eq_none _ hnone).2
    rw [after_append, after_append]
    exact congrArg (Session.after · later) hsame

/-- A text is published and looked at, then a color that is none, and then a message that is no
configuration. -/
def keptPreview : List Action :=
  [.send (.publish { elements := [Config.Element.ofKind .text] }), .poll,
    .send (.ingest "\x7b\"backgroundColor\":\"lavender\"\x7d"), .poll, .send (.ingest "hello")]

/-- The preview of the text stays, and there is nothing new to look at. -/
theorem Session.shows_history_keptPreview :
    ∃ s, Session.open? {} = .ok s ∧ ((s.after keptPreview).version : Nat) = 1 ∧
      (s.after keptPreview).tree.texts = [""] ∧ (s.after keptPreview).poll.1 ≠ .rendered := by
  obtain ⟨s, hs⟩ : ∃ s, Session.open? {} = .ok s := Outcome.failure?_eq_none.mp (by decide +kernel)
  obtain ⟨⟨first, -, htree⟩, hversion, -, hpoll, -⟩ := shows_history hs keptPreview
  refine ⟨s, hs, ?_, ?_, ?_⟩
  · rw [hversion]
    decide +kernel
  · rw [htree]
    have hlast : (rendered keptPreview).getLast?.map Widget.texts = some [""] := by decide +kernel
    obtain ⟨w, hw, htexts⟩ := Option.map_eq_some_iff.mp hlast
    rw [List.getLastD_eq_getLast?, hw]
    exact htexts
  · rw [Ne, hpoll]
    have hunseen : (unseen keptPreview).isNone := by decide +kernel
    rintro ⟨l, tree, hl, -⟩
    rw [hl] at hunseen
    cases hunseen

end LayoutCompiler.Preview
