import LayoutCompiler.Files.Error
import LayoutCompiler.Files.Path

/-
Files and directories as a value. A location is the list of names from the root. What
stands at a location is a directory, a symbolic link, or a file, which can have several
names; a working directory is where relative paths start.

The operating system can refuse any use of anything, for reasons that are not part of a
disk: that covers permissions, disks that cannot be written, and failing devices. And a
file may take only so many bytes, so that it is left cut off when writing it fails.

Names are told apart by case. Left out are devices, pipes and sockets, names that are no
UTF-8, times and owners, and whatever other programs do to the disk in the meantime.
-/

namespace LayoutCompiler.Files

/-- The names on the way from the root. -/
abbrev Location := List String

/-- What can be found at a location when links have been followed. -/
inductive Entry where
  | file (content : List UInt8)
  | directory
  deriving DecidableEq, Repr

/-- What stands at a location. -/
inductive Node where
  | directory
  /-- The file with the given number, which may stand at other locations too. -/
  | file (number : Nat)
  /-- A symbolic link, which is followed from the directory that it is in. -/
  | link (target : Path)
  deriving DecidableEq, Repr

/-- The number after that of a file, and zero for what has none. -/
def Node.nextNumber : Node → Nat
  | file number => number + 1
  | directory | link _ => 0

/-- What may be done with a location. -/
inductive Use where
  /-- Looking it up in its directory. -/
  | reach
  /-- Reading the file or listing the directory. -/
  | read
  /-- Opening the file for writing. -/
  | write
  /-- Making something new there. -/
  | create
  deriving DecidableEq, Repr

structure Disk where
  /-- What stands below the root, each location once. -/
  nodes : List (Location × Node)
  /-- The contents of the files, by their numbers. -/
  contents : Nat → List UInt8
  working : Location
  /-- Why the operating system refuses a use of a location, if it does. -/
  refusal? : Location → Use → Option FileError := fun _ _ => none
  /-- How many bytes the file at a location takes and the error of writing more, if there is such a
  limit. -/
  limit? : Location → Option (Nat × FileError) := fun _ => none

namespace Disk

/-- What stands at a location; the root is always a directory. -/
def node? (d : Disk) (loc : Location) : Option Node :=
  if loc = [] then some .directory else d.nodes.lookup loc

/-- What is found for a node. -/
def found? (d : Disk) : Node → Option Entry
  | .directory => some .directory
  | .file number => some (.file (d.contents number))
  | .link _ => none

/-- What is at a location, if it is no link. -/
def find? (d : Disk) (loc : Location) : Option Entry :=
  (d.node? loc).bind d.found?

/-- Everything that can be found, with its location. -/
def entries (d : Disk) : List (Location × Entry) :=
  d.nodes.filterMap fun n => (d.found? n.2).map (n.1, ·)

/-! ### Changes -/

/-- Puts a node at a location, in place of what stands there. -/
def put (d : Disk) (loc : Location) (node : Node) : Disk :=
  { d with nodes := (loc, node) :: d.nodes.filter fun n => n.1 ≠ loc }

/-- Gives the file with a number its content. -/
def setContent (d : Disk) (number : Nat) (content : List UInt8) : Disk :=
  { d with contents := fun n => if n = number then content else d.contents n }

/-- A number that is greater than those of all files. -/
def newNumber (d : Disk) : Nat :=
  d.nodes.foldr (fun n next => max n.2.nextNumber next) 0

/-- Gives the file at a location its content, where there may be no file before. -/
def store (d : Disk) (loc : Location) (content : List UInt8) : Disk :=
  match d.node? loc with
  | some (.file number) => d.setContent number content
  | some .directory | some (.link _) | none =>
    (d.put loc (.file d.newNumber)).setContent d.newNumber content

/-! ### Following paths -/

/-- The greatest number of bytes in a name. -/
def maxName : Nat := 255

/-- The number of bytes that a path must stay below. -/
def maxPath : Nat := 4096

/-- The greatest number of symbolic links on the way of a path. -/
def maxLinks : Nat := 40

/-- Whether a location may be used in a way. -/
def permit (d : Disk) (loc : Location) (use : Use) : Except FileError Unit :=
  match d.refusal? loc use with
  | some e => .error e
  | none => .ok ()

/-- Where one name leads. -/
inductive Step where
  | place (loc : Location)
  | link (target : Path)
  deriving DecidableEq, Repr

/-- Where a name leads from a directory. What it leads to need not exist. -/
def next (d : Disk) (loc : Location) (name : String) : Except FileError Step :=
  if name = "." then .ok (.place loc)
  else if name = ".." then .ok (.place loc.dropLast)
  else if maxName < name.utf8ByteSize then .error .nameTooLong
  else
    match d.node? (loc ++ [name]) with
    | some (.link target) => .ok (.link target)
    | some .directory | some (.file _) | none => .ok (.place (loc ++ [name]))

/-- Looks up a name from a location, which must be that of a directory. The empty name comes from a
slash at the end of a path and asks for nothing else. -/
def enter (d : Disk) (loc : Location) (name : String) : Except FileError Step :=
  match d.find? loc with
  | none => .error .notFound
  | some (.file _) => .error .notDirectory
  | some .directory =>
    if name = "" then .ok (.place loc)
    else do
      d.permit (loc ++ [name]) .reach
      d.next loc name

/-- Where names lead, up to the first symbolic link. -/
inductive Stretch where
  | arrived (loc : Location)
  /-- The directory at `loc` has the link, and some names are left. -/
  | link (loc : Location) (target : Path) (left : List String)
  deriving DecidableEq, Repr

/-- Follows names from a location up to the first symbolic link. -/
def stretch (d : Disk) (loc : Location) : List String → Except FileError Stretch
  | [] => .ok (.arrived loc)
  | name :: names =>
    match d.enter loc name with
    | .error e => .error e
    | .ok (.place inner) => d.stretch inner names
    | .ok (.link target) => .ok (.link loc target names)

/-- Whether a path ends in a slash, so that it can only mean a directory. -/
def meansDirectory (p : Path) : Bool :=
  p.text.toList.getLast? == some '/'

/-- The names to be looked up on a path. -/
def route (p : Path) : List String :=
  p.names ++ if meansDirectory p then [""] else []

/-- Where a path starts that is used in the directory at a location. -/
def start (loc : Location) (p : Path) : Location :=
  if p.isAbsolute then [] else loc

/-- Follows names from a location with at most the given number of links, and tells how many more
could have been followed. -/
def walk (d : Disk) (links : Nat) (loc : Location) (names : List String) :
    Except FileError (Location × Nat) :=
  match d.stretch loc names with
  | .error e => .error e
  | .ok (.arrived loc) => .ok (loc, links)
  | .ok (.link loc target left) =>
    match links with
    | 0 => .error .tooManyLinks
    | links + 1 => d.walk links (start loc target) (route target ++ left)

/-- Follows names from where a path starts; the path must be one that names something. -/
def follow (d : Disk) (p : Path) (names : List String) : Except FileError Location :=
  if p.text.toList.contains '\x00' then .error .invalidName
  else if p.text.isEmpty then .error .notFound
  else if maxPath ≤ p.text.utf8ByteSize then .error .nameTooLong
  else (d.walk maxLinks (start d.working p) names).map Prod.fst

/-- What a path leads to, and where it is. -/
def lookup (d : Disk) (p : Path) : Except FileError (Location × Entry) := do
  let loc ← d.follow p (route p)
  match d.find? loc with
  | some e => return (loc, e)
  | none => throw .notFound

/-! ### Reading and writing -/

def readFile (d : Disk) (p : Path) : Except FileError (List UInt8) := do
  let (loc, e) ← d.lookup p
  d.permit loc .read
  match e with
  | .file content => return content
  | .directory => throw .isDirectory

/-- Whether a file can be opened for writing at a location, as a new one if there is none. -/
def openAt (d : Disk) (loc : Location) : Except FileError Unit :=
  match d.node? loc with
  | some .directory => .error .isDirectory
  | some (.link _) => .error .tooManyLinks
  | some (.file _) => d.permit loc .write
  | none => d.permit loc .create

/-- The location of a file that is to be written. Where a path can only mean a directory, its last
name is not even looked at. -/
def openFile (d : Disk) (p : Path) : Except FileError Location := do
  if meansDirectory p then
    let _ ← d.follow p (p.names.dropLast ++ ["."])
    throw .isDirectory
  else
    let loc ← d.follow p p.names
    d.openAt loc
    return loc

/-- The part of a content that the file at a location takes, with an error if that is not all. -/
def cut (d : Disk) (loc : Location) (content : List UInt8) : Except FileError Unit × List UInt8 :=
  match d.limit? loc with
  | none => (.ok (), content)
  | some (size, e) =>
    if content.length ≤ size then (.ok (), content) else (.error e, content.take size)

/-- Empties a file that has been opened and writes it, as far as it takes the bytes. -/
def fill (d : Disk) (loc : Location) (content : List UInt8) : Except FileError Unit × Disk :=
  let (result, written) := d.cut loc content
  (result, d.store loc written)

/-- Writes a file, which is created if it is not there. -/
def writeFile (d : Disk) (p : Path) (content : List UInt8) : Except FileError Unit × Disk :=
  match d.openFile p with
  | .error e => (.error e, d)
  | .ok loc => d.fill loc content

/-- The location of a directory that is to be made inside an existing one. A link there is in the
way, wherever it leads. -/
def newDirectory (d : Disk) (p : Path) : Except FileError Location := do
  let above ← d.follow p p.names.dropLast
  match p.names.getLast? with
  | none => throw .alreadyExists
  | some name =>
    match ← d.enter above name with
    | .link _ => throw .alreadyExists
    | .place loc =>
      if (d.node? loc).isSome then throw .alreadyExists
      d.permit loc .create
      return loc

/-- Makes a directory inside an existing one. -/
def makeDirectory (d : Disk) (p : Path) : Except FileError Unit × Disk :=
  match d.newDirectory p with
  | .error e => (.error e, d)
  | .ok loc => (.ok (), d.put loc .directory)

/-! ### Questions -/

/-- Whether a path leads to a directory; an error means no. -/
def isDirectory (d : Disk) (p : Path) : Bool :=
  match d.lookup p with
  | .ok (_, .directory) => true
  | .ok (_, .file _) | .error _ => false

/-- Whether a path leads to a file; an error means no. -/
def isFile (d : Disk) (p : Path) : Bool :=
  match d.lookup p with
  | .ok (_, .file _) => true
  | .ok (_, .directory) | .error _ => false

/-- The names of what stands directly inside a directory. -/
def list (d : Disk) (p : Path) : Except FileError (List String) := do
  match ← d.lookup p with
  | (_, .file _) => throw .notDirectory
  | (loc, .directory) =>
    d.permit loc .read
    return d.nodes.filterMap fun n => if n.1.dropLast = loc then n.1.getLast? else none

/-- The absolute path of what a path leads to. -/
def absolute? (d : Disk) (p : Path) : Option Path :=
  match d.lookup p with
  | .ok (loc, _) => some ⟨"/" ++ "/".intercalate loc⟩
  | .error _ => none

/-! ### Disks for a start -/

/-- Puts an entry below the working directory, with all directories on the way. -/
def place (d : Disk) (names : List String) (e : Entry) : Disk :=
  let steps := (List.range names.length).map fun n => d.working ++ names.take n
  let above := steps.foldl
    (fun d loc => if (d.node? loc).isNone then d.put loc .directory else d) d
  let loc := d.working ++ names
  match e with
  | .file content => above.store loc content
  | .directory => if (above.node? loc).isNone then above.put loc .directory else above

/-- A disk with nothing but an empty working directory. -/
def empty (working : Location) : Disk :=
  { place ⟨[], fun _ => [], [], fun _ _ => none, fun _ => none⟩ working .directory with working }

end Disk

end LayoutCompiler.Files
