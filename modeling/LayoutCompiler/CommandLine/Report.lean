import LayoutCompiler.Conversion
import LayoutCompiler.Text.Quoted
import LayoutCompiler.Text.Terminal
import LayoutCompiler.Widget.Basic

/-
What the program prints: the log, the cause of a failure, one line for each
conversion and one for each rendering of a preview.
-/

namespace LayoutCompiler.CommandLine

open Text (quoted)

/-- The name of the program. -/
def programName : String := "rclayout"

def versionText : String := programName ++ " 0.1.0"

def usage : List String :=
  ["Usage: rclayout <input.json> [output.rc]",
    "       rclayout --dir <input-dir> <output-dir>",
    "       rclayout --preview < messages.jsonl"]

/-! ### The log -/

/-- A level in the log, in a field of five characters. -/
def levelText : Event.Level → String
  | .debug => "DEBUG"
  | .info => "INFO "
  | .warn => "WARN "

/-- The part of the program that the log names for an event; none for those that are not shown. -/
def logSource? : Event → Option String
  | .convertingFiles _ | .convertedFile _ _ _ => some "rclayout::convert"
  | .keptPreview _ => some "rclayout_preview::session"
  | .stoppedReading => some "rclayout"
  | .skippedElement _ | .encoding _ _ | .ignoredMessage _ | .ignoredConfig _ | .rendered _ => none

/-- A message with the lines after the first one indented. -/
def indented (message : String) : String :=
  String.ofList (message.toList.flatMap fun c => if c = '\n' then '\n' :: "    ".toList else [c])

/-- What the log says about an event, with the end of its last line; `stamp` is put before the
level. -/
def logText? (stamp : String) (e : Event) : Option String :=
  (logSource? e).map fun source =>
    Text.Terminal.withoutSequences
      ("[" ++ stamp ++ levelText e.level ++ " " ++ source ++ "] " ++ indented e.message ++ "\n")

/-! ### Failures -/

/-- A text in braces. -/
def braced (s : String) : String :=
  "\x7b " ++ s ++ " \x7d"

def colorReport : Color.Error → String
  | .invalidLength value length =>
    "InvalidLength " ++ braced ("value: " ++ quoted value ++ ", len: " ++ toString length)
  | .invalidDigit value => "InvalidDigit " ++ braced ("value: " ++ quoted value)

def writeReport : Document.WriteError → String
  | .unbalanced => "UnbalancedContainer"
  | .unclosed count => "UnclosedContainers(" ++ toString count ++ ")"

def buildReport : BuildError → String
  | .color e => "Color(" ++ colorReport e ++ ")"
  | .write e => writeReport e

def jsonReport (e : Json.Error) : String :=
  "Error(" ++ quoted e.cause.message ++ ", line: " ++ toString e.line ++ ", column: " ++
    toString e.column ++ ")"

/-- The name of a kind of file errors. -/
def fileErrorKind : Files.FileError → String
  | .notFound => "NotFound"
  | .permissionDenied => "PermissionDenied"
  | .alreadyExists => "AlreadyExists"
  | .notDirectory => "NotADirectory"
  | .isDirectory => "IsADirectory"
  | .nameTooLong => "InvalidFilename"
  | .storageFull => "StorageFull"
  | .tooManyLinks => "FilesystemLoop"
  | .invalidName => "InvalidInput"
  | .notText => "InvalidData"
  | .other _ _ => "Uncategorized"

def fileReport (e : Files.FileError) : String :=
  let fields := "kind: " ++ fileErrorKind e ++ ", message: " ++ quoted e.text
  match e.code? with
  | some code => "Os " ++ braced ("code: " ++ toString code ++ ", " ++ fields)
  | none => "Error " ++ braced fields

/-- The cause of a failed conversion, with the structure of the error. -/
def failureReport : ConversionError → String
  | .reading input e =>
    "Io(Custom " ++
      braced ("kind: " ++ fileErrorKind e ++ ", error: " ++ quoted (readingText input e)) ++ ")"
  | .file e => "Io(" ++ fileReport e ++ ")"
  | .json e => "Json(" ++ jsonReport e ++ ")"
  | .building e => "Document(" ++ buildReport e ++ ")"
  | .notDirectory input => "InvalidInput(" ++ quoted (notDirectoryText input) ++ ")"

/-- The last line of a run that failed. -/
def failureLine (e : ConversionError) : String :=
  "Error: " ++ failureReport e

/-! ### Results -/

def conversionLine (c : Conversion) : String :=
  "  " ++ c.input.shortName ++ " -> " ++ c.output.shortName ++ " (" ++ toString c.size ++ " bytes)"

/-- The line after the conversion of a directory. -/
def doneLine (output : Files.Path) : String :=
  "Done. Output in: " ++ output.text

def renderingLine (tree : Widget) (version : Nat) : String :=
  "preview v" ++ toString version ++ ": " ++ toString tree.count ++ " widgets, texts " ++
    Text.quotedList tree.texts ++ ", actions " ++ Text.quotedList tree.actions

end LayoutCompiler.CommandLine
