import LayoutCompiler.Config.Reader
import LayoutCompiler.Document.Build
import LayoutCompiler.Document.Codec
import LayoutCompiler.Files.Workspace
import LayoutCompiler.Screen.Resolve

/-
Converting layouts to documents: one layout, one text, one file, or all files of a
directory. Files are converted in the order of their names and the first failure
ends the conversion of a directory; what was written before stays.
-/

namespace LayoutCompiler

open Config (Layout)
open Document (Options Bytes)
open Files (Path FileError Workspace)

/-- Why a layout cannot be made a document. -/
inductive BuildError where
  | color (error : Color.Error)
  | write (error : Document.WriteError)
  deriving DecidableEq, Repr

/-- The wording of an error. -/
def BuildError.message : BuildError → String
  | color error => "Invalid color: " ++ error.message
  | write error => error.message

/-- Why a conversion fails. -/
inductive ConversionError where
  /-- The input cannot be read as text. -/
  | reading (input : Path) (error : FileError)
  | file (error : FileError)
  | json (error : Json.Error)
  | building (error : BuildError)
  | notDirectory (input : Path)
  deriving DecidableEq, Repr

/-- The wording of the error for an input that cannot be read. -/
def readingText (input : Path) (error : FileError) : String :=
  "Failed to read config from '" ++ input.text ++ "': " ++ error.message

/-- The wording of the error for an input that should be a directory. -/
def notDirectoryText (input : Path) : String :=
  "'" ++ input.text ++ "' is not a directory"

/-- The wording of an error. -/
def ConversionError.message : ConversionError → String
  | reading input error => "I/O error: " ++ readingText input error
  | file error => "I/O error: " ++ error.message
  | json error => "Invalid layout config: " ++ error.message
  | building error => "Document generation failed: " ++ error.message
  | notDirectory input => "Invalid input: " ++ notDirectoryText input

/-- The document of a layout. -/
def Config.Layout.document (o : Options) (l : Layout) : Except BuildError Document :=
  match l.resolve with
  | .error e => .error (.color e)
  | .ok screen =>
    match Document.build .empty o screen with
    | .error e => .error (.write e)
    | .ok d => .ok d

/-- The event of encoding a document. -/
def Document.encodingEvent (d : Document) : Event :=
  .encoding d.operations.length d.texts.length

/-- The events of making the document of a layout. -/
def Config.Layout.documentEvents (o : Options) (l : Layout) : List Event :=
  l.skipped.map .skippedElement ++
    match l.document o with
    | .ok d => [d.encodingEvent]
    | .error _ => []

/-- The document of the layout that a JSON text describes. -/
def convertText (o : Options) (text : String) : Except ConversionError Document :=
  match Layout.ofJson text with
  | .error e => .error (.json e)
  | .ok l => (l.document o).mapError .building

/-- The events of converting a text. -/
def convertTextEvents (o : Options) (text : String) : List Event :=
  match Layout.ofJson text with
  | .error _ => []
  | .ok l => l.documentEvents o

/-- The extension of encoded documents. -/
def documentExtension : String := "rc"

/-- The extension of layouts that the conversion of a directory looks for. -/
def layoutExtension : String := "json"

/-- Where the document of an input goes if nothing else is said. -/
def defaultOutput (input : Path) : Path :=
  input.withExtension documentExtension

/-- The outcome of converting a file. -/
structure Conversion where
  input : Path
  output : Path
  size : Nat
  deriving DecidableEq, Repr

section

variable {m : Type → Type} [Monad m] [Workspace m]

open Files.Workspace

/-- A program that stops at the first error. -/
abbrev Converting (m : Type → Type) := ExceptT ConversionError m

/-- Reads a file as text. -/
def readText (input : Path) : Converting m String := do
  match ← readFile (m := m) input with
  | .error e => throw (.reading input e)
  | .ok bytes =>
    match Text.Utf8.decode bytes with
    | .error _ => throw (.reading input .notText)
    | .ok cs => return String.ofList cs

/-- An action on files, with its error. -/
def onFiles {α : Type} (action : m (Except FileError α)) : Converting m α := do
  match ← action with
  | .error e => throw (.file e)
  | .ok a => return a

/-- Reports events in order. -/
def reportAll : List Event → m Unit
  | [] => return ()
  | e :: es => do
    report e
    reportAll es

/-- Converts a file. Only when its text has been converted is anything written: the missing
directories above the output, and the output. -/
def convertFile (o : Options) (input output : Path) : Converting m Conversion := do
  let text ← readText input
  reportAll (m := m) (convertTextEvents o text)
  match convertText o text with
  | .error e => throw e
  | .ok document =>
    let bytes := document.encode
    match output.parent? with
    | some parent => onFiles (Files.makeDirectories (m := m) parent)
    | none => pure ()
    onFiles (writeFile (m := m) output bytes)
    report (m := m) (.convertedFile input.text output.text bytes.length)
    return ⟨input, output, bytes.length⟩

/-- The layouts directly inside a directory, in the order of their names. What cannot be told to be
a file is left out. -/
def layoutFiles (directory : Path) : Converting m (List Path) := do
  let names ← onFiles (list (m := m) directory)
  let found ← names.filterM fun name => do
    let file ← isFile (m := m) (directory.join name)
    return file && (directory.join name).extension? = some layoutExtension
  return (found.mergeSort (· ≤ ·)).map directory.join

/-- The output for an input in the conversion of a directory. -/
def outputIn (directory input : Path) : Option Path :=
  input.stem?.map fun stem => directory.join (stem ++ "." ++ documentExtension)

/-- Converts files one after another. -/
def convertFiles (o : Options) (directory : Path) : List Path → Converting m (List Conversion)
  | [] => return []
  | input :: rest =>
    match outputIn directory input with
    | none => convertFiles o directory rest
    | some output => do
      let first ← convertFile o input output
      let others ← convertFiles o directory rest
      return first :: others

/-- Converts all layouts directly inside a directory. -/
def convertDirectory (o : Options) (input output : Path) : Converting m (List Conversion) := do
  if !(← isDirectory (m := m) input) then throw (.notDirectory input)
  onFiles (Files.makeDirectories (m := m) output)
  let inputs ← layoutFiles input
  report (m := m) (.convertingFiles inputs.length)
  convertFiles o output inputs

end

end LayoutCompiler
