/-
Why a file cannot be used, in the words of the operating system.
-/

namespace LayoutCompiler.Files

inductive FileError where
  | notFound
  | permissionDenied
  | alreadyExists
  | notDirectory
  | isDirectory
  | nameTooLong
  | storageFull
  | tooManyLinks
  /-- A name holds a character that no name can have. -/
  | invalidName
  /-- The content of a file is no UTF-8. -/
  | notText
  /-- Any other error of the operating system. -/
  | other (code : Nat) (text : String)
  deriving DecidableEq, Repr

namespace FileError

/-- The number that the operating system gives to an error. -/
def code? : FileError → Option Nat
  | notFound => some 2
  | permissionDenied => some 13
  | alreadyExists => some 17
  | notDirectory => some 20
  | isDirectory => some 21
  | storageFull => some 28
  | nameTooLong => some 36
  | tooManyLinks => some 40
  | invalidName => none
  | notText => none
  | other code _ => some code

/-- The wording of an error without its number. -/
def text : FileError → String
  | notFound => "No such file or directory"
  | permissionDenied => "Permission denied"
  | alreadyExists => "File exists"
  | notDirectory => "Not a directory"
  | isDirectory => "Is a directory"
  | nameTooLong => "File name too long"
  | storageFull => "No space left on device"
  | tooManyLinks => "Too many levels of symbolic links"
  | invalidName => "file name contained an unexpected NUL byte"
  | notText => "stream did not contain valid UTF-8"
  | other _ text => text

/-- The wording of an error. -/
def message (e : FileError) : String :=
  match e.code? with
  | some code => e.text ++ " (os error " ++ toString code ++ ")"
  | none => e.text

end FileError

end LayoutCompiler.Files
