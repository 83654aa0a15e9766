/-
Paths of files: names separated by slashes. Repeated slashes count once, a slash
at the end does not matter, and a single dot only counts at the front of a path
that is not absolute. The last name may have an extension, which follows its last
dot, unless that dot is the first character.
-/

namespace LayoutCompiler.Files

structure Path where
  text : String
  deriving DecidableEq, Repr

namespace Path

/-- Whether the path starts at the root. -/
def isAbsolute (p : Path) : Bool :=
  p.text.toList.head? == some '/'

/-- The characters of a path, last one first, without slashes at the end and without names there
that are single dots after a slash. -/
def dropIdleEnd : List Char → List Char
  | '/' :: cs => dropIdleEnd cs
  | '.' :: '/' :: cs => dropIdleEnd cs
  | cs => cs

/-- The characters of a path up to its last name, last one first. -/
def upToName (p : Path) : List Char :=
  dropIdleEnd p.text.toList.reverse

/-- The names on the path, dots included. -/
def names (p : Path) : List String :=
  ((p.text.toList.splitOn '/').filter fun cs => !cs.isEmpty).map String.ofList

/-- The last name, if it is the name of something rather than a way there. -/
def fileName? (p : Path) : Option String :=
  let name := String.ofList (p.upToName.takeWhile (· ≠ '/')).reverse
  if name = "" ∨ name = "." ∨ name = ".." then none else some name

/-- The path without its last name; none if nothing is left to drop. -/
def parent? (p : Path) : Option Path :=
  match p.upToName with
  | [] => none
  | cs =>
    match dropIdleEnd (cs.dropWhile (· ≠ '/')) with
    | [] => some ⟨if p.isAbsolute then "/" else ""⟩
    | rest => some ⟨String.ofList rest.reverse⟩

/-- A name as the part before its last dot and the extension after it. A name without a dot, or
whose only dot comes first, has no extension. -/
def splitName (name : String) : String × Option String :=
  let reversed := name.toList.reverse
  match reversed.dropWhile (· ≠ '.') with
  | [] => (name, none)
  | [_] => (name, none)
  | _ :: stem =>
    (String.ofList stem.reverse, some (String.ofList (reversed.takeWhile (· ≠ '.')).reverse))

/-- The last name without its extension. -/
def stem? (p : Path) : Option String :=
  p.fileName?.map fun name => (splitName name).1

def extension? (p : Path) : Option String :=
  p.fileName?.bind fun name => (splitName name).2

/-- The path cut after its stem, with the given extension; a path without a last name stays. -/
def setExtension (p : Path) (extension : String) : Path :=
  match p.fileName? with
  | none => p
  | some name =>
    let excess := name.length - (splitName name).1.length
    ⟨String.ofList (p.upToName.drop excess).reverse ++ "." ++ extension⟩

/-- The path with its extension replaced or, if it has none, added. As many characters as the old
extension has are taken off the end before the new one is put after the stem; the rest of a name
that is only dots then no longer counts as a name. -/
def withExtension (p : Path) (extension : String) : Path :=
  match p.extension? with
  | none => p.setExtension extension
  | some old =>
    setExtension ⟨String.ofList (p.text.toList.reverse.drop old.length).reverse⟩ extension

/-- The path of a name inside the directory at `p`. -/
def join (p : Path) (name : String) : Path :=
  if p.text.isEmpty || p.text.toList.getLast? == some '/' then ⟨p.text ++ name⟩
  else ⟨p.text ++ "/" ++ name⟩

/-- The path and the paths above it, deepest first, without the root and the empty path; at most
`fuel` of them. -/
def ancestorsWithin : (fuel : Nat) → Path → List Path
  | 0, _ => []
  | fuel + 1, p =>
    match p.parent? with
    | none => []
    | some above => p :: ancestorsWithin fuel above

/-- The path and the paths above it, deepest first, without the root and the empty path. -/
def ancestors (p : Path) : List Path :=
  p.ancestorsWithin p.text.length

/-- The last name, or the whole path if it has none. -/
def shortName (p : Path) : String :=
  p.fileName?.getD p.text

end Path

end LayoutCompiler.Files
