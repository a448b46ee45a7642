/-!
# Why a file cannot be used

Every way in which an access to the file system or the start of a program can fail, and its
wording.
-/

namespace LineShell

/-- A cause for which the file system or the start of a program is refused. -/
inductive FileError where
  | notFound
  | argumentsTooLong
  | badFormat
  | permissionDenied
  | alreadyExists
  | notDirectory
  | isDirectory
  | nameTooLong
  | tooManyLinks
  | nulInName
  /-- A NUL in the name of a program or in one of its arguments. -/
  | nulInCommand
  /-- A text file whose bytes are not UTF-8. -/
  | notText
  | noTerminal
  /-- Any other cause, in the words of its reporter. -/
  | other (text : String)
  deriving DecidableEq, Repr

namespace FileError

/-- The number by which the operating system knows the cause, and its words for it. -/
def systemCode : FileError → Option (Nat × String)
  | notFound => some (2, "No such file or directory")
  | argumentsTooLong => some (7, "Argument list too long")
  | badFormat => some (8, "Exec format error")
  | permissionDenied => some (13, "Permission denied")
  | alreadyExists => some (17, "File exists")
  | notDirectory => some (20, "Not a directory")
  | isDirectory => some (21, "Is a directory")
  | nameTooLong => some (36, "File name too long")
  | tooManyLinks => some (40, "Too many levels of symbolic links")
  | noTerminal => some (6, "No such device or address")
  | _ => none

/-- The cause in words. -/
def message (e : FileError) : String :=
  match e.systemCode with
  | some (n, text) => s!"{text} (os error {n})"
  | none => match e with
    | nulInName => "file name contained an unexpected NUL byte"
    | nulInCommand => "nul byte found in provided data"
    | notText => "stream did not contain valid UTF-8"
    | other text => text
    | _ => ""

end FileError

end LineShell
