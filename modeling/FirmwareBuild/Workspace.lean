import FirmwareBuild.PrebuiltTools

/-! # Workspaces

The directory a build runs in: its absolute path, entering it, and naming it in
the environment. -/

namespace FirmwareBuild.Workspace

/-- The absolute path of a workspace. What it names is not looked at. -/
def absolutePath (path : Bytes) : Run Bytes := do
  match (← get).disk.absolute path with
  | .ok full => return full
  | .error cause => throw (.io .openWorkspace path cause)

def enter (path : Bytes) : Run Bytes := do
  let full ← absolutePath path
  Run.onDisk .enterWorkspace full (Disk.enter full)
  return full

/-- Names the workspace in the environment, octet by octet. This comes after preparation, which
goes by the name that was there before. -/
def pin (path : Bytes) : Run Unit := Run.edit (·.set workspaceName path)

end FirmwareBuild.Workspace
