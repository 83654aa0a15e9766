import LayoutCompiler.Config.Reader
import LayoutCompiler.Event
import LayoutCompiler.Widget.Render

/-
Previews that follow a stream of configurations. Between the sender and the viewer
lies a slot that holds the configuration sent last; the viewer looks into it from
time to time and renders what it finds if it is new. A configuration that was
replaced before the viewer looked is never rendered, and one that cannot be
rendered leaves the preview as it was.
-/

namespace LayoutCompiler.Preview

open Config (Layout)

/-- The place where the sender leaves configurations. -/
structure Slot where
  latest : Layout
  /-- Whether the configuration has not been looked at yet. -/
  pending : Bool
  /-- Whether the sender is gone. -/
  closed : Bool

/-- How often something has been rendered, counted in eight bytes. -/
structure Version where
  word : UInt64
  deriving DecidableEq, Repr

namespace Version

/-- The version after `n` renderings. -/
def ofNat (n : Nat) : Version := ⟨UInt64.ofNat n⟩

def toNat (v : Version) : Nat := v.word.toNat

instance : Coe Version Nat := ⟨toNat⟩

/-- The version after one more rendering. -/
def next (v : Version) : Version := ⟨v.word + 1⟩

theorem next_ofNat (n : Nat) : (ofNat n).next = ofNat (n + 1) := by
  rw [ofNat, ofNat, next, UInt64.ofNat_add]
  rfl

end Version

/-- A preview and the slot it follows. -/
structure Session where
  slot : Slot
  tree : Widget
  /-- The number of configurations rendered since the session was opened. -/
  version : Version

/-- What became of a message. -/
inductive Ingestion where
  | published
  /-- The message does not start as a configuration does; it has `size` bytes. -/
  | ignored (size : Nat)
  | malformed (error : Json.Error)
  deriving DecidableEq, Repr

/-- What a look into the slot led to. -/
inductive Polling where
  | nothingNew
  | rendered
  | failed (error : Color.Error)
  deriving DecidableEq, Repr

/-- A session that shows `initial`. -/
def Session.open? (initial : Layout) : Except Color.Error Session :=
  initial.render.map fun tree => ⟨⟨initial, false, false⟩, tree, .ofNat 0⟩

namespace Session

/-- Leaves a configuration in the slot. -/
def publish (s : Session) (l : Layout) : Session :=
  { s with slot := { s.slot with latest := l, pending := true } }

/-- Handles a message: one that starts with an opening brace and is a configuration is
published, all others change nothing. -/
def ingest (s : Session) (message : String) : Ingestion × Session :=
  match message.toList with
  | '\x7b' :: _ =>
    match Layout.ofJson message with
    | .ok l => (.published, s.publish l)
    | .error e => (.malformed e, s)
  | _ => (.ignored message.utf8ByteSize, s)

/-- Lets go of the sender. -/
def close (s : Session) : Session :=
  { s with slot := { s.slot with closed := true } }

/-- Whether the sender is gone; a last configuration may still be in the slot. -/
def isClosed (s : Session) : Bool :=
  s.slot.closed

/-- Looks into the slot and renders what is new. -/
def poll (s : Session) : Polling × Session :=
  if s.slot.pending then
    let seen := { s with slot := { s.slot with pending := false } }
    match s.slot.latest.render with
    | .ok tree => (.rendered, { seen with tree, version := s.version.next })
    | .error e => (.failed e, seen)
  else (.nothingNew, s)

end Session

/-! ### Events -/

/-- The events of rendering a layout. -/
def renderEvents (l : Layout) : List Event :=
  l.skipped.map .skippedElement

/-- The events of handling a message. -/
def Ingestion.events : Ingestion → List Event
  | published => []
  | ignored size => [.ignoredMessage size]
  | malformed error => [.ignoredConfig error]

/-- The events of a look into the slot of `s`. -/
def Session.pollEvents (s : Session) : List Event :=
  match s.poll with
  | (.nothingNew, _) => []
  | (.rendered, after) => renderEvents s.slot.latest ++ [.rendered after.version]
  | (.failed e, _) => renderEvents s.slot.latest ++ [.keptPreview e]

end LayoutCompiler.Preview
