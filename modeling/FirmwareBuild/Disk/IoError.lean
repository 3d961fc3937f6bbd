import FirmwareBuild.Text

/-! # Why an operation on files or processes fails -/

namespace FirmwareBuild

inductive IoError where
  | notFound
  /-- A file that may not be executed. -/
  | permissionDenied
  | notPermitted
  | alreadyExists
  | notADirectory
  | isADirectory
  /-- A component of more than 255 octets, or a path of more than 4095. -/
  | nameTooLong
  | notEmpty
  | tooManyLinks
  /-- A name that cannot be given to what it is to be given to. -/
  | invalidArgument
  /-- A directory that is in use. -/
  | busy
  | noSpace
  /-- A stream that is not open, or not for what is done with it. -/
  | badStream
  | brokenPipe
  | execFormat
  | argumentsTooLong
  | emptyCommand
  | zeroInPath
  | zeroInCommand
  /-- The empty path, which no absolute path stands for. -/
  | emptyPath
  | notAFile
  /-- Contents that are not UTF-8. -/
  | notText
  deriving DecidableEq, Repr

def IoError.message (e : IoError) : Text :=
  String.toList <| match e with
  | notFound => "No such file or directory (os error 2)"
  | permissionDenied => "Permission denied (os error 13)"
  | notPermitted => "Operation not permitted (os error 1)"
  | alreadyExists => "File exists (os error 17)"
  | notADirectory => "Not a directory (os error 20)"
  | isADirectory => "Is a directory (os error 21)"
  | nameTooLong => "File name too long (os error 36)"
  | notEmpty => "Directory not empty (os error 39)"
  | tooManyLinks => "Too many levels of symbolic links (os error 40)"
  | invalidArgument => "Invalid argument (os error 22)"
  | busy => "Device or resource busy (os error 16)"
  | noSpace => "No space left on device (os error 28)"
  | badStream => "Bad file descriptor (os error 9)"
  | brokenPipe => "Broken pipe (os error 32)"
  | execFormat => "Exec format error (os error 8)"
  | argumentsTooLong => "Argument list too long (os error 7)"
  | emptyCommand => "empty command"
  | zeroInPath => "file name contained an unexpected NUL byte"
  | zeroInCommand => "nul byte found in provided data"
  | emptyPath => "cannot make an empty path absolute"
  | notAFile => "the source path is neither a regular file nor a symlink to a regular file"
  | notText => "stream did not contain valid UTF-8"

end FirmwareBuild
