import LayoutCompiler.CommandLine.Arguments
import LayoutCompiler.CommandLine.Report
import LayoutCompiler.Preview.Loop
import LayoutCompiler.Text.Lines

/-
The program: what it does for its arguments. Conversions run in any workspace. For
previews, `previewAtOnce` says what happens when all messages have arrived before
the first look, as it is when they come from a file.
-/

namespace LayoutCompiler.CommandLine

open Document (Options)
open Files (Path Workspace)
open Preview (Session Loop)

/-- What the arguments ask for. -/
inductive Task where
  | version
  | help
  /-- The arguments are at fault. -/
  | refuse
  /-- The arguments are too few, or too many directories are given. -/
  | usage
  | convertFile (options : Options) (input output : Path)
  | convertDirectory (options : Options) (input output : Path)
  | preview
  deriving DecidableEq, Repr

/-- The task of arguments that have been read. -/
def Task.ofArguments (a : Arguments) : Task :=
  let options : Options := { density := a.density.getD ({} : Options).density }
  if a.preview then .preview
  else
    match a.directories, a.input with
    | [input, output], _ => .convertDirectory options input output
    | [], some input => .convertFile options input (a.output.getD (defaultOutput input))
    | _, _ => .usage

/-- The task of a command line. -/
def Task.ofCommandLine (args : List String) : Task :=
  if args.isEmpty then .usage
  else
    match Arguments.read args with
    | .ok a => .ofArguments a
    | .error .version => .version
    | .error .help => .help
    | .error .invalid => .refuse

/-- How a run ends: the exit code, and the lines for the output and for the errors that have not
been printed on the way. -/
structure Outcome where
  exitCode : Nat
  output : List String := []
  errors : List String := []
  deriving DecidableEq, Repr

namespace Outcome

def usage : Outcome := { exitCode := 1, errors := CommandLine.usage }

def refused : Outcome :=
  { exitCode := 2, errors := ["error: invalid arguments"] ++ CommandLine.usage }

def failed (e : ConversionError) : Outcome := { exitCode := 1, errors := [failureLine e] }

/-- All that a run with the given events has written to the error stream when it ends. -/
def errorText (o : Outcome) (events : List Event) : String :=
  String.join (events.filterMap (logText? "")) ++ String.join (o.errors.map (· ++ "\n"))

end Outcome

section

variable {m : Type → Type} [Monad m] [Workspace m]

open Files.Workspace

def runFile (o : Options) (input output : Path) : m Outcome := do
  match ← (convertFile o input output).run with
  | .ok c => return { exitCode := 0, output := [conversionLine c] }
  | .error e => return .failed e

def runDirectory (o : Options) (input output : Path) : m Outcome := do
  match ← (convertDirectory o input output).run with
  | .ok cs => do
    let absolute ← absolute? output
    return { exitCode := 0, output := cs.map conversionLine ++ [doneLine (absolute.getD output)] }
  | .error e => return .failed e

/-- Runs a task; `preview` is how a preview is run. -/
def Task.run (preview : m Outcome) : Task → m Outcome
  | version => return { exitCode := 0, output := [versionText] }
  | help => return { exitCode := 0, output := CommandLine.usage }
  | refuse => return .refused
  | usage => return .usage
  | convertFile options input output => runFile options input output
  | convertDirectory options input output => runDirectory options input output
  | Task.preview => preview

end

/-! ### Previews -/

/-- The session and the events after lines have been handled as messages, up to the first one
that is no UTF-8. -/
def ingestLines (s : Session) : List (List UInt8) → Session × List Event
  | [] => (s, [])
  | line :: lines =>
    match Text.Utf8.decode line with
    | .error _ => (s, [.stoppedReading])
    | .ok cs =>
      let (result, s') := s.ingest (String.ofList cs)
      let (final, events) := ingestLines s' lines
      (final, result.events ++ events)

/-- The preview of messages that have all arrived before the first look: its lines and its
events. -/
def previewAtOnce (input : List UInt8) : Except Color.Error (List String × List Event) :=
  (Session.open? {}).map fun s =>
    let (arrived, events) := ingestLines s (Text.byteLines input)
    let closed := arrived.close
    let final := (Loop.ofSession closed).round
    (final.reports.reverse.map fun r => renderingLine r.tree r.version,
      events ++ closed.pollEvents)

/-- A preview in a workspace, of messages that have all arrived before the first look. -/
def runPreviewAtOnce {m : Type → Type} [Monad m] [Workspace m] (input : List UInt8) :
    m Outcome := do
  match previewAtOnce input with
  | .error e =>
    return { exitCode := 1, errors := ["Error: Preview(Color(" ++ colorReport e ++ "))"] }
  | .ok (lines, events) =>
    reportAll events
    return { exitCode := 0, output := lines }

end LayoutCompiler.CommandLine
