import LayoutCompiler.Color
import LayoutCompiler.Json.Failure

/-
Events that are worth a line in the log, with their levels and wordings. Functions
return the events of their work; whoever runs them decides which ones to show.
-/

namespace LayoutCompiler

/-- How important an event is. -/
inductive Event.Level where
  | debug
  | info
  | warn
  deriving DecidableEq, Repr

inductive Event where
  /-- An element of unknown kind was left out. -/
  | skippedElement (id : String)
  | encoding (operations texts : Nat)
  /-- A message of `size` bytes is no configuration. -/
  | ignoredMessage (size : Nat)
  | ignoredConfig (error : Json.Error)
  | rendered (version : Nat)
  /-- A configuration could not be shown, and the last preview stays. -/
  | keptPreview (error : Color.Error)
  | convertingFiles (count : Nat)
  | convertedFile (input output : String) (size : Nat)
  /-- The messages are no UTF-8 from some point on. -/
  | stoppedReading
  deriving DecidableEq, Repr

namespace Event

def level : Event → Level
  | skippedElement _ | encoding _ _ | ignoredMessage _ | ignoredConfig _ | rendered _ => .debug
  | convertingFiles _ | convertedFile _ _ _ => .info
  | keptPreview _ | stoppedReading => .warn

def message : Event → String
  | skippedElement id => "Skipping element with unrecognized type (id: '" ++ id ++ "')"
  | encoding operations texts =>
    "Encoding document: " ++ toString operations ++ " operations, " ++ toString texts ++ " strings"
  | ignoredMessage size =>
    "Ignoring non-JSON preview message (" ++ toString size ++ " bytes)"
  | ignoredConfig error => "Ignoring malformed preview config: " ++ error.message
  | rendered version => "Preview re-rendered (version " ++ toString version ++ ")"
  | keptPreview error =>
    "Keeping previous preview, new config failed to render: Invalid color: " ++ error.message
  | convertingFiles count => "Converting " ++ toString count ++ " config files..."
  | convertedFile input output size =>
    input ++ " -> " ++ output ++ " (" ++ toString size ++ " bytes)"
  | stoppedReading =>
    "Stopped reading preview messages: stream did not contain valid UTF-8"

end Event

end LayoutCompiler
