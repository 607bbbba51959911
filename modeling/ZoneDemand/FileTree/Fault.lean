/-!
# Faults of file operations

The ways in which an operation on the local file tree fails, with the texts by
which they are reported.
-/

namespace ZoneDemand

inductive FileFault where
  | notFound
  | isDirectory
  | notDirectory
  | exists
  | busy
  | nameTooLong
  | directoryNotEmpty
  | zeroInName
  | notText
  | other (text : String)
deriving DecidableEq, Repr

def FileFault.message : FileFault → String
  | .notFound => "No such file or directory (os error 2)"
  | .isDirectory => "Is a directory (os error 21)"
  | .notDirectory => "Not a directory (os error 20)"
  | .exists => "File exists (os error 17)"
  | .busy => "Device or resource busy (os error 16)"
  | .nameTooLong => "File name too long (os error 36)"
  | .directoryNotEmpty => "Directory not empty (os error 39)"
  | .zeroInName => "file name contained an unexpected NUL byte"
  | .notText => "stream did not contain valid UTF-8"
  | .other text => text

end ZoneDemand
