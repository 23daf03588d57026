/-!
# Why the file system refuses

The faults of the operating system with their numbers and texts, and those that are found before it
is asked or after it has answered.
-/

namespace ProvideIndex

inductive SystemFault where
  | notFound
  | noProgram
  | badDescriptor
  | accessDenied
  | busy
  | alreadyExists
  | notDirectory
  | isDirectory
  | nameTooLong
  | tooManyLinks
  deriving DecidableEq, Repr

namespace SystemFault

def number : SystemFault → Nat
  | notFound => 2
  | noProgram => 8
  | badDescriptor => 9
  | accessDenied => 13
  | busy => 16
  | alreadyExists => 17
  | notDirectory => 20
  | isDirectory => 21
  | nameTooLong => 36
  | tooManyLinks => 40

def text : SystemFault → String
  | notFound => "No such file or directory"
  | noProgram => "Exec format error"
  | badDescriptor => "Bad file descriptor"
  | accessDenied => "Permission denied"
  | busy => "Device or resource busy"
  | alreadyExists => "File exists"
  | notDirectory => "Not a directory"
  | isDirectory => "Is a directory"
  | nameTooLong => "File name too long"
  | tooManyLinks => "Too many levels of symbolic links"

def message (fault : SystemFault) : String :=
  fault.text ++ " (os error " ++ toString fault.number ++ ")"

end SystemFault

inductive FileFault where
  | system (fault : SystemFault)
  /-- A path with a null character cannot be passed on. -/
  | nullInPath
  | notText
  /-- The path ends in no name, so no file can be put there. -/
  | noFileName (path : String)
  deriving DecidableEq, Repr

namespace FileFault

def message : FileFault → String
  | system fault => fault.message
  | nullInPath => "file name contained an unexpected NUL byte"
  | notText => "stream did not contain valid UTF-8"
  | noFileName path => "not a file path: " ++ path

/-- The text of a fault without its number, as programs show it. -/
def plainText : FileFault → String
  | system fault => fault.text
  | fault => fault.message

end FileFault

end ProvideIndex
