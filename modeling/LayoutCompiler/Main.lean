import LayoutCompiler.CommandLine.Program

/-
The command line on a real machine: files of the operating system, the log on the
error stream, and previews of messages as they arrive on the input.
-/

namespace LayoutCompiler.CommandLine

open Files (Path FileError Workspace)
open Preview (Session Loop)

/-- An error of the operating system as a file error. -/
def fileErrorOf (e : IO.Error) : FileError :=
  match e with
  | .noFileOrDirectory _ _ _ => .notFound
  | .permissionDenied _ _ _ => .permissionDenied
  | .alreadyExists _ _ _ => .alreadyExists
  | .inappropriateType _ 20 _ => .notDirectory
  | .inappropriateType _ 21 _ => .isDirectory
  | .resourceExhausted _ 28 _ => .storageFull
  | e => .other 5 (toString e)

/-- An action on files, with its error as a value. -/
def attempt {α : Type} (action : IO α) : IO (Except FileError α) := do
  try
    return .ok (← action)
  catch e =>
    return .error (fileErrorOf e)

/-- A question about files; an error means no. -/
def holds (question : IO Bool) : IO Bool := do
  try
    question
  catch _ =>
    return false

instance : Workspace IO where
  readFile p := attempt do return (← IO.FS.readBinFile p.text).toList
  writeFile p content := attempt (IO.FS.writeBinFile p.text content.toByteArray)
  makeDirectory p := attempt (IO.FS.createDir p.text)
  isDirectory p := holds do
    return (← (← IO.FS.realPath p.text).metadata).type == IO.FS.FileType.dir
  isFile p := holds do
    return (← (← IO.FS.realPath p.text).metadata).type == IO.FS.FileType.file
  list p := attempt do
    return ((← (← IO.FS.realPath p.text).readDir).map (·.fileName)).toList
  absolute? p := do
    match ← (IO.FS.realPath p.text).toBaseIO with
    | .ok path => return some ⟨path.toString⟩
    | .error _ => return none
  report e := do
    match logText? "" e with
    | some text => IO.eprint text
    | none => return ()

/-- Handles the lines of the input as messages until it ends, and lets go of the sender. -/
partial def readMessages (input : IO.FS.Stream) (shared : IO.Ref Loop) : IO Unit := do
  let close := shared.modify fun l => { l with session := l.session.close }
  let line ← (input.getLine).toBaseIO
  match line with
  | .error _ =>
    Workspace.report .stoppedReading
    close
  | .ok "" => close
  | .ok line =>
    let message := match Text.splitLine '\n' line.toList with
      | (content, some _) => Text.dropReturn '\r' content
      | (content, none) => content
    shared.modify fun l => { l with session := (l.session.ingest (String.ofList message)).2 }
    readMessages input shared

/-- Runs the steps of the loop until it has ended, with an interval between its rounds. -/
partial def showRounds (shared : IO.Ref Loop) : IO Unit := do
  let before ← shared.modifyGet fun l => (l, l.step)
  for event in before.events do
    Workspace.report event
  for r in before.due do
    IO.println (renderingLine r.tree r.version)
  match before.phase with
  | .testing false => IO.sleep Preview.defaultInterval.toUInt32
  | .ended => return
  | _ => pure ()
  showRounds shared

/-- A preview of the messages on the input, as they arrive. -/
def runPreview : IO Outcome := do
  match Session.open? {} with
  | .error e =>
    return { exitCode := 1, errors := ["Error: Preview(Color(" ++ colorReport e ++ "))"] }
  | .ok s =>
    let shared ← IO.mkRef (Loop.ofSession s)
    let input ← IO.getStdin
    let reader ← IO.asTask (readMessages input shared) .dedicated
    IO.sleep Preview.firstDelay.toUInt32
    showRounds shared
    let _ ← IO.wait reader
    return { exitCode := 0 }

end LayoutCompiler.CommandLine

open LayoutCompiler.CommandLine in
def main (args : List String) : IO UInt32 := do
  let outcome ← (Task.ofCommandLine args).run runPreview
  for line in outcome.output do
    IO.println line
  for line in outcome.errors do
    IO.eprintln line
  return outcome.exitCode.toUInt32
