/-!
# Faults of a file system

Why a file or a directory cannot be read or written, in the wording of the system.
-/

namespace ViewBinding.Files

/-- Why an operation on a path fails. -/
inductive Fault
  | noSuchFile
  | alreadyExists
  | notDirectory
  | isDirectory
  | tooManyLinks
  | nameTooLong
  /-- The path holds a null character, which no path can. -/
  | nullInPath
  /-- The content is not a text. -/
  | notText
  /-- Any other reason, in the wording of the system. -/
  | other (wording : String)
deriving DecidableEq, Repr, Inhabited

/-- The wording of a fault. -/
def Fault.message : Fault → String
  | noSuchFile => "No such file or directory (os error 2)"
  | alreadyExists => "File exists (os error 17)"
  | notDirectory => "Not a directory (os error 20)"
  | isDirectory => "Is a directory (os error 21)"
  | tooManyLinks => "Too many levels of symbolic links (os error 40)"
  | nameTooLong => "File name too long (os error 36)"
  | nullInPath => "file name contained an unexpected NUL byte"
  | notText => "stream did not contain valid UTF-8"
  | other wording => wording

/-- The text that the bytes of a file are. -/
def decode (bytes : ByteArray) : Except Fault String :=
  match String.fromUTF8? bytes with
  | some text => .ok text
  | none => .error .notText

end ViewBinding.Files
