import LayoutCompiler.Preview.Session

/-
The polling loop of a preview, and its course over time. One round of the loop waits
for its tick, reads whether the sender is gone, looks into the slot, reports what was
rendered, and ends the loop if the sender was gone when it was read. The order matters:
a last configuration left before the sender went is still found by the look that
follows. The parts of a round are separate steps, so that a sender can be run between
any two of them.

On a clock, the ticks and what comes from the sender happen in the order of their times,
and the other steps of the loop take no time. The loop ends by its own last step; the
clock only says when its timers go off (`Clock.OnTime` says when they should). An
interval of zero is refused once the first delay is over.
-/

namespace LayoutCompiler.Preview

/-- A rendering that the loop has reported. -/
structure Report where
  tree : Widget
  version : Version

/-- Where the loop stands; `closed` tells what was read in the round. -/
inductive Phase where
  /-- Before the tick that begins a round. -/
  | waiting
  /-- Before it is read whether the sender is gone. -/
  | reading
  /-- Before the look into the slot. -/
  | looking (closed : Bool)
  /-- Before the report, which is made if the look has rendered something. -/
  | reporting (closed rendered : Bool)
  /-- Before the test whether the round is the last one. -/
  | testing (closed : Bool)
  | ended
  deriving DecidableEq, Repr

/-- The state of the loop: its session and the reports so far, last one first. -/
structure Loop where
  session : Session
  phase : Phase
  reports : List Report

namespace Loop

/-- The loop before its first round. -/
def ofSession (s : Session) : Loop := ⟨s, .waiting, []⟩

/-- The report of what is shown. -/
def report (l : Loop) : Report :=
  ⟨l.session.tree, l.session.version⟩

/-- The report that the next step makes, if it makes one. -/
def due (l : Loop) : List Report :=
  match l.phase with
  | .reporting _ true => [l.report]
  | .waiting | .reading | .looking _ | .reporting _ false | .testing _ | .ended => []

/-- The events of the next step. -/
def events (l : Loop) : List Event :=
  match l.phase with
  | .looking _ => l.session.pollEvents
  | .waiting | .reading | .reporting _ _ | .testing _ | .ended => []

/-- One step of the loop. -/
def step (l : Loop) : Loop :=
  match l.phase with
  | .waiting => { l with phase := .reading }
  | .reading => { l with phase := .looking l.session.isClosed }
  | .looking closed =>
    let (result, session) := l.session.poll
    { l with session, phase := .reporting closed (result = .rendered) }
  | .reporting closed _ => { l with phase := .testing closed, reports := l.due ++ l.reports }
  | .testing closed => { l with phase := if closed then .ended else .waiting }
  | .ended => l

/-- The five steps of a round. -/
def round (l : Loop) : Loop :=
  l.step.step.step.step.step

end Loop

/-! ### Clocks -/

/-- The time before the first round, in milliseconds. -/
def firstDelay : Nat := 100

/-- The interval between rounds that is used if no other is asked for, in milliseconds. -/
def defaultInterval : Nat := 50

/-- When timers go off. Times are counted in a unit of which `millisecond` make a millisecond. -/
structure Clock where
  millisecond : Nat
  /-- When a sleep of the given length is over that begins at `now`. -/
  awake : (now length : Nat) → Nat
  /-- When the first tick comes of a ticker that is made at `now`. -/
  firstTick : (now interval : Nat) → Nat
  /-- When the tick after the one at `tick` comes. -/
  nextTick : (tick interval : Nat) → Nat

namespace Clock

/-- A clock with nothing late or early. -/
def exact (millisecond : Nat) : Clock where
  millisecond
  awake now length := now + length
  firstTick now _ := now
  nextTick tick interval := tick + interval

/-- Timers as they should be: a sleep takes its length, the first tick comes at once, and each of
the others an interval after the one before. -/
structure OnTime (clock : Clock) (interval : Nat) : Prop where
  awake : ∀ now length, clock.awake now length = now + length
  firstTick : ∀ now, clock.firstTick now interval = now
  nextTick : ∀ tick, clock.nextTick tick interval = tick + interval

theorem onTime_exact (millisecond interval : Nat) : (exact millisecond).OnTime interval :=
  ⟨fun _ _ => rfl, fun _ => rfl, fun _ => rfl⟩

/-- When the first delay is over. -/
def firstAwake (clock : Clock) : Nat :=
  clock.awake 0 (firstDelay * clock.millisecond)

end Clock

/-- Why a loop cannot be run on a clock. -/
inductive ClockError where
  | zeroInterval
  deriving DecidableEq, Repr

def ClockError.message : ClockError → String
  | zeroInterval => "`period` must be non-zero."

/-! ### The course over time -/

/-- A message and the time at which it arrives. -/
structure TimedMessage where
  time : Nat
  text : String
  deriving DecidableEq, Repr

/-- What comes from the sender. -/
inductive Arrival where
  | message (m : TimedMessage)
  /-- The sender goes. -/
  | goodbye (time : Nat)
  deriving DecidableEq, Repr

def Arrival.time : Arrival → Nat
  | message m => m.time
  | goodbye time => time

/-- What happened to a loop over time, and what is still to come. -/
structure Course where
  loop : Loop
  now : Nat
  /-- When the next tick comes. -/
  next : Nat
  /-- What is still to come from the sender, in order. -/
  coming : List Arrival
  /-- What became of the messages handled so far, last one first. -/
  ingestions : List Ingestion := []
  /-- The times of the ticks so far, last one first. -/
  ticks : List Nat := []
  /-- The renderings and their times, last one first. -/
  reports : List (Nat × Report) := []
  /-- The events, in order. -/
  events : List Event := []

namespace Course

def session (c : Course) : Session :=
  c.loop.session

/-- Handles a message. -/
def ingest (c : Course) (message : String) : Course :=
  let (result, session) := c.session.ingest message
  { c with
    loop := { c.loop with session }
    ingestions := result :: c.ingestions
    events := c.events ++ result.events }

/-- The sender goes. -/
def close (c : Course) : Course :=
  { c with loop := { c.loop with session := c.session.close } }

/-- Handles what comes from the sender. -/
def receive (c : Course) : Arrival → Course
  | .message m => c.ingest m.text
  | .goodbye _ => c.close

/-- A step of the loop, which takes no time. -/
def advance (c : Course) : Course :=
  { c with
    loop := c.loop.step
    reports := c.loop.due.map (fun r => (c.now, r)) ++ c.reports
    events := c.events ++ c.loop.events }

/-- The tick that the loop waits for. -/
def tick (clock : Clock) (interval : Nat) (c : Course) : Course :=
  advance { c with
    now := c.next
    next := clock.nextTick c.next interval
    ticks := c.next :: c.ticks }

/-- What happens next. A loop that waits goes on at its tick, and what the sender does before that
comes first. -/
def step (clock : Clock) (interval : Nat) (c : Course) : Course :=
  if c.loop.phase = .waiting then
    match c.coming with
    | a :: coming =>
      if a.time < c.next then { c.receive a with now := max c.now a.time, coming }
      else c.tick clock interval
    | [] => c.tick clock interval
  else c.advance

/-- The course until the loop has ended, or after `fuel` steps. -/
def untilEnd (clock : Clock) (interval : Nat) : (fuel : Nat) → Course → Course
  | 0, c => c
  | fuel + 1, c =>
    if c.loop.phase = .ended then c else untilEnd clock interval fuel (c.step clock interval)

/-- The course before anything has happened. -/
def start (clock : Clock) (interval closeAt : Nat) (messages : List TimedMessage) (s : Session) :
    Course where
  loop := .ofSession s
  now := 0
  next := clock.firstTick clock.firstAwake interval
  coming := messages.map .message ++ [.goodbye closeAt]

/-- The number of steps in which the loop ends if its ticks are on time: each message, the going of
the sender, and five for every round. -/
def enough (closeAt : Nat) (messages : List TimedMessage) : Nat :=
  messages.length + 1 + 5 * (closeAt + 2)

/-- The course of a session whose loop has the given interval, until it ends, and the time at
which it does. Messages are in the order of their times and none is later than `closeAt`, when the
sender goes. -/
def run (interval closeAt : Nat) (messages : List TimedMessage) (s : Session)
    (clock : Clock := .exact 1) : Except ClockError (Nat × Course) :=
  if interval = 0 then .error .zeroInterval
  else
    let c := untilEnd clock interval (enough closeAt messages)
      (start clock interval closeAt messages s)
    .ok (c.now, c)

/-- The course until the first delay is over. -/
def beforeRounds (messages : List TimedMessage) (s : Session) (clock : Clock := .exact 1) :
    Course :=
  (messages.takeWhile (·.time < clock.firstAwake)).foldl (fun c m => c.ingest m.text)
    { loop := .ofSession s, now := 0, next := clock.firstAwake, coming := [] }

end Course

end LayoutCompiler.Preview
