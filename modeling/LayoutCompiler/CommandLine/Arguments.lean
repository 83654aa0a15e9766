import LayoutCompiler.Files.Path
import LayoutCompiler.Number.Literal

/-
Arguments of the command line. Options may stand anywhere before a double dash;
what is no option is an input, and then an output. The first fault ends the
reading, and so does the question for the version.
-/

namespace LayoutCompiler.CommandLine

open Files (Path)
open Number (Single)

/-- The arguments read so far, or all of them. -/
structure Arguments where
  input : Option Path := none
  output : Option Path := none
  /-- All directories given, input and output of each time in turn. -/
  directories : List Path := []
  density : Option Single := none
  preview : Bool := false
  deriving DecidableEq, Repr

/-- Why reading the arguments ends early. -/
inductive Stop where
  /-- The version is asked for. -/
  | version
  /-- Help is asked for. -/
  | help
  | invalid
  deriving DecidableEq, Repr

/-- Whether an argument is no value: a dash with something after it. -/
def looksLikeOption (arg : String) : Bool :=
  match arg.toList with
  | '-' :: _ :: _ => true
  | _ => false

/-- A path given as an argument, which must not be empty. -/
def pathOf (arg : String) : Except Stop Path :=
  if arg.isEmpty then .error .invalid else .ok ⟨arg⟩

namespace Arguments

/-- Takes an argument that is no option. -/
def positional (a : Arguments) (arg : String) : Except Stop Arguments := do
  let path ← pathOf arg
  match a.input, a.output with
  | none, _ => return { a with input := some path }
  | some _, none => return { a with output := some path }
  | some _, some _ => throw .invalid

/-- Takes the text of a density, which must not be given twice. -/
def withDensity (a : Arguments) (text : String) : Except Stop Arguments :=
  match a.density, Single.ofText? text with
  | none, some density => .ok { a with density := some density }
  | _, _ => .error .invalid

/-- Takes an input and an output directory. -/
def withDirectories (a : Arguments) (input output : String) : Except Stop Arguments := do
  let input ← pathOf input
  let output ← pathOf output
  return { a with directories := a.directories ++ [input, output] }

/-- Takes the wish for a preview, which must not be given twice. -/
def withPreview (a : Arguments) : Except Stop Arguments :=
  if a.preview then .error .invalid else .ok { a with preview := true }

/-- Takes arguments none of which is an option. -/
def positionals (a : Arguments) : List String → Except Stop Arguments
  | [] => .ok a
  | arg :: args => do
    let a ← a.positional arg
    a.positionals args

/-- What stands after the equality sign of an option, and the option before it. -/
def splitValue (arg : String) : String × Option String :=
  let cs := arg.toList
  match cs.dropWhile (· ≠ '=') with
  | [] => (arg, none)
  | _ :: value => (String.ofList (cs.takeWhile (· ≠ '=')), some (String.ofList value))

/-- Takes an option that needs no value of its own from the arguments after it. -/
def lone (a : Arguments) (arg : String) : Except Stop Arguments :=
  match splitValue arg with
  | ("--density", some text) => a.withDensity text
  | ("--preview", none) => a.withPreview
  | ("--version", none) => .error .version
  | ("--help", none) => .error .help
  | _ =>
    match arg.toList with
    | '-' :: 'V' :: _ => .error .version
    | '-' :: 'h' :: _ => .error .help
    | _ => .error .invalid

/-- Takes arguments one after another. -/
def readOnto (a : Arguments) : List String → Except Stop Arguments
  | [] => .ok a
  | "--" :: args => a.positionals args
  | "--density" :: text :: args => do
    if looksLikeOption text then throw .invalid
    let a ← a.withDensity text
    a.readOnto args
  | "--dir" :: input :: output :: args => do
    if looksLikeOption input || looksLikeOption output then throw .invalid
    let a ← a.withDirectories input output
    a.readOnto args
  | arg :: args => do
    let a ← if looksLikeOption arg then a.lone arg else a.positional arg
    a.readOnto args

/-- Whether no two things are asked for that exclude each other. -/
def agree (a : Arguments) : Bool :=
  let files := a.input.isSome
  let directories := !a.directories.isEmpty
  !(a.preview && (files || directories)) && !(files && directories)

/-- Reads all arguments. -/
def read (args : List String) : Except Stop Arguments := do
  let a ← readOnto {} args
  if a.agree then return a else throw .invalid

end Arguments

end LayoutCompiler.CommandLine
