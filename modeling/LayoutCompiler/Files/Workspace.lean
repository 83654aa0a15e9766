import LayoutCompiler.Event
import LayoutCompiler.Files.Disk

/-
What conversions need from their surroundings: files, and a place for events. The
surroundings can be a real machine or a disk that is a value.
-/

namespace LayoutCompiler.Files

/-- Surroundings in which programs of type `m` run. -/
class Workspace (m : Type → Type) where
  readFile : Path → m (Except FileError (List UInt8))
  writeFile : Path → List UInt8 → m (Except FileError Unit)
  /-- Creates a directory inside an existing one. -/
  makeDirectory : Path → m (Except FileError Unit)
  isDirectory : Path → m Bool
  isFile : Path → m Bool
  /-- The names of what is directly inside a directory, in any order. -/
  list : Path → m (Except FileError (List String))
  absolute? : Path → m (Option Path)
  report : Event → m Unit

/-- A disk and the events reported so far, in order. -/
structure Desk where
  disk : Disk
  events : List Event := []

/-- Programs that work on a disk that is a value. -/
abbrev OnDesk := StateM Desk

namespace OnDesk

/-- Looks something up. -/
def query {α : Type} (f : Disk → α) : OnDesk α := fun d => (f d.disk, d)

/-- Changes the disk, and tells whether that went well. -/
def change (f : Disk → Except FileError Unit × Disk) : OnDesk (Except FileError Unit) := fun d =>
  let (result, disk) := f d.disk
  (result, { d with disk })

instance : Workspace OnDesk where
  readFile p := query (·.readFile p)
  writeFile p content := change (·.writeFile p content)
  makeDirectory p := change (·.makeDirectory p)
  isDirectory p := query (·.isDirectory p)
  isFile p := query (·.isFile p)
  list p := query (·.list p)
  absolute? p := query (·.absolute? p)
  report e := fun d => ((), { d with events := d.events ++ [e] })

end OnDesk

variable {m : Type → Type} [Monad m] [Workspace m]

open Workspace

/-- Creates the directories at the given paths, where each path is followed by the one above it.
A directory that exists already is fine. -/
def makeAll : List Path → m (Except FileError Unit)
  | [] => return .ok ()
  | p :: above => do
    match ← makeDirectory p with
    | .ok () => return .ok ()
    | .error e =>
      if e = .notFound then
        match ← makeAll above with
        | .error e => return .error e
        | .ok () => makeUnlessThere p
      else
        unlessThere p e
where
  /-- Creates a directory unless it is there. -/
  makeUnlessThere (p : Path) : m (Except FileError Unit) := do
    match ← makeDirectory p with
    | .ok () => return .ok ()
    | .error e => unlessThere p e
  /-- The error of creating a directory, unless it says that there is something and that is a
  directory. -/
  unlessThere (p : Path) (e : FileError) : m (Except FileError Unit) := do
    if e ≠ .alreadyExists then return .error e
    if ← isDirectory p then return .ok () else return .error e

/-- Creates a directory and the directories above it, as far as they are missing. -/
def makeDirectories (p : Path) : m (Except FileError Unit) :=
  makeAll p.ancestors

end LayoutCompiler.Files
