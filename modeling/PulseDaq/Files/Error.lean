/-!
# Operating system errors
-/

namespace PulseDaq

/-- What the operating system reports. -/
inductive OsError where
  | notFound
  | alreadyExists
  | notDirectory
  | isDirectory
  | nameTooLong
  /-- A path with a NUL, which the system is never asked about. -/
  | nulInPath
  /-- Anything else, in its own words. -/
  | other (text : String)
  deriving DecidableEq, Repr

/-- The wording of an operating system error. -/
def OsError.message : OsError → String
  | notFound => "No such file or directory (os error 2)"
  | alreadyExists => "File exists (os error 17)"
  | notDirectory => "Not a directory (os error 20)"
  | isDirectory => "Is a directory (os error 21)"
  | nameTooLong => "File name too long (os error 36)"
  | nulInPath => "file name contained an unexpected NUL byte"
  | other text => text

end PulseDaq
