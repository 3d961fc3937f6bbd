import FirmwareBuild.Text

/-! # Host families

Everything that differs from one operating system to the next hangs on the
family: how lists of directories and paths are separated, how executables are
named, and which toolchain is native. The family is a plain value, so the rules
of every host can be followed on any other. -/

namespace FirmwareBuild

/-- The family an operating system belongs to. -/
inductive Host where
  /-- macOS, with the Xcode toolchain. -/
  | macos
  /-- Any other system with POSIX conventions, with the GNU toolchain. -/
  | posix
  /-- Windows, with the Visual Studio toolchain. -/
  | windows
  /-- Anything else. No toolchain is known there. -/
  | unsupported
  deriving DecidableEq, Repr

namespace Host

def name : Host → Text
  | macos => "macos".toList
  | posix => "posix".toList
  | windows => "windows".toList
  | unsupported => "unsupported".toList

/-- macOS shares the make-based tools of the POSIX family. -/
def isPosixLike : Host → Bool
  | macos | posix => true
  | windows | unsupported => false

/-- What stands between the entries of a search path. -/
def listSeparator : Host → Char
  | windows => ';'
  | _ => ':'

def separator : Host → Char
  | windows => '\\'
  | _ => '/'

def exeSuffix : Host → Text
  | windows => ".exe".toList
  | _ => []

/-- A path made of `base` and the `parts` below it. The separators that `base` ends in and
those at either end of a part do not count: exactly one stands before each part. -/
def join (host : Host) (base : Text) (parts : List Text) : Text :=
  Text.dropEnd (· == host.separator) base ++
    parts.flatMap fun part => host.separator :: Text.dropEnds (· == host.separator) part

end Host

end FirmwareBuild
