/-!
# Refusals of the file system

The reasons for which a file cannot be read or written, with the words of the
system for them.
-/

namespace TypeReach.Files

/-- Why a file or directory cannot be used. -/
inductive SystemError where
  | notFound
  | alreadyExists
  | notADirectory
  | isADirectory
  | nameTooLong
  | nulInName
  /-- A file that was to be read as text is not UTF-8. -/
  | invalidText
  /-- A file that was to be read as an archive is none. -/
  | notAnArchive
  /-- What stands in the place of packed content does not unpack. -/
  | unreadablePacking
  /-- What stands in the place of an entry's content is not that content. -/
  | wrongChecksum
  /-- A directory that was come to while listing another one was refused. -/
  | listing (directory : String) (error : SystemError)
  deriving DecidableEq, Repr

/-- The words for a refusal. -/
def SystemError.message : SystemError → String
  | notFound => "No such file or directory (os error 2)"
  | alreadyExists => "File exists (os error 17)"
  | notADirectory => "Not a directory (os error 20)"
  | isADirectory => "Is a directory (os error 21)"
  | nameTooLong => "File name too long (os error 36)"
  | nulInName => "file name contained an unexpected NUL byte"
  | invalidText => "stream did not contain valid UTF-8"
  | notAnArchive => "invalid Zip archive: Could not find EOCD"
  | unreadablePacking => "corrupt deflate stream"
  | wrongChecksum => "Invalid checksum"
  | listing directory error => "IO error for operation on " ++ directory ++ ": " ++ error.message

/-- The words for a refusal and for those behind it. -/
def SystemError.messages : SystemError → List String
  | listing directory error => (listing directory error).message :: error.messages
  | error => [error.message]

end TypeReach.Files
