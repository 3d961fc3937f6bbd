import FirmwareBuild.Settings
import FirmwareBuild.Toolchain

/-! # Build requests

What is asked of the build system: the variant, the hardware, and the toolchain,
and the command line that asks for it. -/

namespace FirmwareBuild

/-- The variant of a build. -/
inductive Target where
  | debug
  | release
  deriving DecidableEq, Repr

def Target.name : Target → Text
  | debug => "DEBUG".toList
  | release => "RELEASE".toList

inductive Hardware where
  | real
  | qemu
  deriving DecidableEq, Repr

def Hardware.name : Hardware → Text
  | real => "REAL".toList
  | qemu => "QEMU".toList

structure Request where
  target : Target := .debug
  hardware : Hardware := .real
  toolchain : Toolchain := .unresolved
  deriving DecidableEq, Repr

namespace Request

def reportFile (request : Request) : Text :=
  "Report".toList ++ request.target.name ++ ".log".toList

def program : Host → Text
  | .windows => "build.bat".toList
  | _ => "build".toList

def command (request : Request) (host : Host) (parameters : BuildParameters) : Command :=
  .echoed
    [program host, "-p".toList, parameters.platform, "-a".toList, parameters.arch,
      "-b".toList, request.target.name, "-t".toList, request.toolchain.identifier,
      "-DPLATFORM_TYPE=".toList ++ request.hardware.name, "-y".toList, request.reportFile]

end Request

end FirmwareBuild
