import FirmwareBuild.ConfDirectory
import FirmwareBuild.Settings
import FirmwareBuild.Toolchain.Resolution
import FirmwareBuild.Workspace

/-! # Preparing the environment of a build

Preparation finds the toolchain and then writes the variables that the build
system reads. Each of them is either set, filled in where it is missing, or
lengthened at its end; no variable of the inherited environment is taken away.
Where preparation fails, the variables written so far stay written. -/

namespace FirmwareBuild.Preparation

def toolsName : Text := "EDK_TOOLS_PATH".toList

def baseToolsName : Text := "BASE_TOOLS_PATH".toList

def confName : Text := "CONF_PATH".toList

def toolchainName : Text := "TOOL_CHAIN".toList

def pythonPathName : Text := "PYTHONPATH".toList

def nasmName : Text := "NASM_PREFIX".toList

def opensslName : Text := "OPENSSL_PATH".toList

def iaslName : Text := "IASL_PREFIX".toList

/-- The directories of a workspace that belong on the search path, in order. -/
def toolDirectories (host : Host) (root : Text) : List Text :=
  match host with
  | .macos | .posix =>
    [host.join root [baseTools, "BinWrappers".toList, "PosixLike".toList]]
  | .windows =>
    [host.join root [baseTools, "Bin".toList, "Win32".toList],
      host.join root [baseTools, "BinWrappers".toList, "WindowsLike".toList]]
  | .unsupported => []

def addToolDirectories (host : Host) (root : Text) (env : Overlay) : Overlay :=
  (toolDirectories host root).foldl (fun env directory => env.appendPath host directory) env

def setPythonPath (root : Text) (env : Overlay) : Overlay :=
  env.setText pythonPathName
    (Host.windows.join root [baseTools, "Source".toList, "Python".toList])

/-- The overlay with the place of an installation, and with the places of auxiliary tools as far
as it does not name them. -/
def setInstallation (installation : Installation) (defaults : ToolDefaults) (env : Overlay) :
    Overlay :=
  (((env.setText installation.variableName installation.path).setDefault nasmName
    (Utf8.encode defaults.nasmPrefix)).setDefault opensslName
    (Utf8.encode defaults.opensslPath)).setDefault iaslName (Utf8.encode defaults.iaslPrefix)

/-- The overlay with the variables about the workspace. A workspace that it names already stays,
and the configuration directory goes with that one, if its name is text. -/
def setWorkspace (host : Host) (root : Text) (toolchain : Toolchain) (env : Overlay) : Overlay :=
  let tools := host.join root [baseTools]
  let env := ((env.setText toolsName tools).setText baseToolsName tools).setDefault workspaceName
    (Utf8.encode root)
  let conf := host.join ((env.get? workspaceName).getD root) [ConfDirectory.name]
  (env.setText confName conf).setText toolchainName toolchain.identifier

/-- Finds the toolchain and writes the overlay for a build in the workspace `root`. -/
def prepare (bench : Workbench) (defaults : ToolDefaults) (root : Bytes) : Run Toolchain := do
  let rootText := Utf8.decodeLossy root
  Run.edit (·.setHost bench.host)
  let toolchain ← Toolchain.resolve bench
  match bench.host with
  | .macos | .posix => Run.edit (addToolDirectories bench.host rootText)
  | .windows =>
    Run.edit (addToolDirectories bench.host rootText)
    Run.edit (setPythonPath rootText)
    match toolchain.installation with
    | none => throw .visualStudioNotFound
    | some installation => Run.edit (setInstallation installation defaults)
  | .unsupported => throw (.unsupportedHost bench.host)
  -- on every host that comes this far a toolchain was found
  unless toolchain.isResolved do throw (.unsupportedHost bench.host)
  Run.edit (setWorkspace bench.host rootText toolchain)
  return toolchain

end FirmwareBuild.Preparation
