import FirmwareBuild.Posix.Shell.Interpreter
import FirmwareBuild.Session.Runner

/-! # A POSIX machine

Starting programs on a machine with the usual small programs and a shell, all of
it a function of the arguments, the environment and the disk. A program reads
nothing, and what it writes to its output is kept in order with what its children
write there. -/

namespace FirmwareBuild.Posix

/-- The number of steps after which a program counts as one that does not end. -/
def patience : Nat := 1000000

/-- Whether a zero octet stands where a program could not see what follows it. -/
def holdsZero (argv : List Text) (env : List (Bytes × Bytes)) : Bool :=
  argv.any (·.contains '\x00') ||
    env.any fun (name, value) => name.contains 0 || value.contains 0

/-- The process that a machine starts. It reads nothing, its output is kept, and its complaints go
nowhere. -/
def firstProcess (disk : Disk) : Shell :=
  { disk, channels := #[.device .null, .collector 0], streams := [(0, 0), (1, 1), (2, 0)] }

/-- The machine. A program whose name is no path is looked for along the search path of its
environment. Its working directory is that of the disk, which stays what it was. -/
def machine : Machine := fun argv env disk =>
  if holdsZero argv env then (.unstarted .zeroInCommand, disk)
  else
    let octets := argv.map fun arg => ofOctets (Utf8.encode arg)
    let vars := env.map fun (name, value) => (ofOctets name, ofOctets value)
    let searchPath := env.lookup (Utf8.encode Overlay.pathName)
    match load disk (environmentTexts vars) searchPath false octets with
    | .error cause => (.unstarted cause, disk)
    | .ok loaded =>
      let ended := match Act.runLoaded patience loaded vars (firstProcess disk) with
        | .ok _ shell => shell
        | .error _ shell => shell
      let output := ended.written.reverse.flatMap fun entry => toOctets entry.2
      (.exited (ended.status % 256) output, { ended.disk with cwd := disk.cwd })

end FirmwareBuild.Posix
