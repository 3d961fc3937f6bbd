import FirmwareBuild.Build

/-! # Build flags

The three flags of a build: `/r` and `/d` choose the variant and `/qemu` chooses
the hardware. A later flag overrides an earlier one. -/

namespace FirmwareBuild.Flags

/-- What the flags of a build ask for. -/
structure Choice where
  target : Target := .debug
  hardware : Hardware := .real
  deriving DecidableEq, Repr

def apply (choice : Choice) (token : Text) : Except BuildError Choice :=
  if token = "/r".toList then .ok { choice with target := .release }
  else if token = "/d".toList then .ok { choice with target := .debug }
  else if token = "/qemu".toList then .ok { choice with hardware := .qemu }
  else .error (.unknownFlag token)

/-- What some flags ask for. The first one that means nothing is an error. -/
def read (tokens : List Text) : Except BuildError Choice := tokens.foldlM apply {}

end FirmwareBuild.Flags
