import FirmwareBuild.Session.Probe
import FirmwareBuild.Session.Runner

/-! # Native toolchains

A run starts by finding the toolchain of its host. What it finds is described by
the identifier that the build system knows it under, a version, and for a
toolchain that is part of an IDE the place of its installation. -/

namespace FirmwareBuild

/-- Where a toolchain is installed, and the variable that the build system reads the place from. -/
structure Installation where
  variableName : Text
  path : Text
  deriving DecidableEq, Repr

/-- A toolchain. The empty identifier says that there is none. -/
structure Toolchain where
  identifier : Text := []
  version : Text := []
  installation : Option Installation := none
  deriving DecidableEq, Repr, Inhabited

/-- What a step of a run works with: the host, what runs commands and what looks at files. -/
structure Workbench where
  host : Host
  runner : Runner
  probe : Probe

namespace Toolchain

def unresolved : Toolchain := {}

def isResolved (toolchain : Toolchain) : Bool := !toolchain.identifier.isEmpty

def xcode5 : Text := "XCODE5".toList

/-- The identifier of the GNU toolchain up to release 4. -/
def gcc49 : Text := "GCC49".toList

/-- The identifier of the GNU toolchain from release 5 on. -/
def gcc5 : Text := "GCC5".toList

/-- The newest major version that is still served as `gcc49`. -/
def gcc49Newest : Nat := 4

/-- The major version in the output of a compiler: what stands before the first period. -/
def majorVersion (output : Text) : Text := (Text.trim output).takeWhile (· != '.')

def versionLimit : Nat := 4294967296

/-- The number that decimal digits denote, perhaps after a plus sign, if it fits into 32 bits. -/
def versionNumber? (t : Text) : Option Nat :=
  let digits := (Text.dropStart? ['+'] t).getD t
  if digits.isEmpty || !digits.all Char.isDigit then none
  else
    let n := digits.foldl (fun n c => n * 10 + (c.toNat - '0'.toNat)) 0
    if n < versionLimit then some n else none

def gnu (output : Text) : Except BuildError Toolchain :=
  match versionNumber? (majorVersion output) with
  | none => .error (.compilerVersion (Text.trim output))
  | some n =>
    .ok { identifier := if n > gcc49Newest then gcc5 else gcc49, version := majorVersion output }

end Toolchain

end FirmwareBuild
