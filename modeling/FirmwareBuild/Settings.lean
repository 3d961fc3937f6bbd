import FirmwareBuild.Text

/-! # Settings

What a workspace can set for its builds. Every setting has a default, so a
workspace that sets nothing builds the payload with the stock parameters. -/

namespace FirmwareBuild

structure BuildParameters where
  /-- The platform description, below the workspace. -/
  platform : Text := "SmmPayloadPkg/SmmPayloadPkg.dsc".toList
  arch : Text := "X64".toList
  deriving DecidableEq, Repr

/-- Where auxiliary tools are on a Windows host whose environment does not say. -/
structure ToolDefaults where
  nasmPrefix : Text := "C:\\Nasm\\".toList
  opensslPath : Text := "C:\\Openssl\\".toList
  iaslPrefix : Text := "C:\\ASL\\".toList
  deriving DecidableEq, Repr

structure Settings where
  build : BuildParameters := {}
  tools : ToolDefaults := {}
  deriving DecidableEq, Repr

instance : Inhabited Settings := ⟨{}⟩

end FirmwareBuild
