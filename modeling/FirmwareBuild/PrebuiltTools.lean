import FirmwareBuild.Toolchain

/-! # Prebuilt tools

The build system needs a handful of native image and compression utilities. They
are built once and kept in the workspace; a run that finds them all does nothing
here. On POSIX-like hosts the scripts around them need a Python interpreter, so
that one is asked first where it is and which version it has. -/

namespace FirmwareBuild

def workspaceName : Text := "WORKSPACE".toList

def baseTools : Text := "BaseTools".toList

namespace PrebuiltTools

/-- The utilities that have to exist before the build system is called. -/
def required : List Text :=
  ["GenFfs", "GenFv", "GenFw", "GenSec", "LzmaCompress"].map String.toList

def binParts : Host → List Text
  | .windows => [baseTools, "Bin".toList, "Win32".toList]
  | _ => [baseTools, "Source".toList, "C".toList, "bin".toList]

def binDirectory (host : Host) (workspace : Text) : Text := host.join workspace (binParts host)

def toolPath (host : Host) (workspace tool : Text) : Text :=
  host.join (binDirectory host workspace) [tool ++ host.exeSuffix]

def missing (bench : Workbench) (disk : Disk) (workspace : Text) : List Text :=
  required.filter fun tool => !bench.probe.pathExists disk (toolPath bench.host workspace tool)

def pythonName : Text := "PYTHON_COMMAND".toList

/-- The interpreter that is used when the one asked gives no answer. -/
def pythonFallback : Text := "python".toList

/-- The question put to the interpreter: its path and its version. -/
def pythonCommand : Command :=
  .captured ["python3".toList, "-c".toList,
    "import sys, platform; print(', '.join([sys.executable, platform.python_version()]))".toList]

/-- The interpreter and the version in an answer: what stands before the first comma and what
stands after it. -/
def readPython? (answer : Text) : Option (Text × Text) := do
  let (interpreter, version) ← Text.splitFirst? ',' answer
  if (Text.trim interpreter).isEmpty then none
  else some (Text.trim interpreter, Text.trim version)

def detectPython (bench : Workbench) : Run Unit := do
  let answer ← bench.runner pythonCommand
  match readPython? answer with
  | some (interpreter, version) =>
    Run.edit (·.setText pythonName interpreter)
    Run.say ("Using ".toList ++ interpreter ++ ", Version ".toList ++ version)
  | none => Run.edit (·.setText pythonName pythonFallback)

def rebuildCommand : Host → Command
  | .windows => { argv := ["BaseTools\\toolsetup.bat".toList, "forcerebuild".toList] }
  | _ => { argv := ["make".toList, "-C".toList, baseTools] }

/-- The error of a step with a failed command put below another error. A command that could not
be started is reported as it is. -/
def wrapFailure (wrap : BuildError → BuildError) : BuildError → BuildError
  | .commandFailed line status => wrap (.commandFailed line status)
  | e => e

def rebuild (bench : Workbench) : Run Unit := do
  if bench.host = .windows then
    Run.say "Could not find pre-built BaseTools binaries, try to rebuild BaseTools ...".toList
  let _ ← Run.mapError (wrapFailure .toolsRebuild) (bench.runner (rebuildCommand bench.host))

/-- Makes sure that every required tool is there, and says whether they had to be built. -/
def ensure (bench : Workbench) : Run Bool := do
  if bench.host.isPosixLike then detectPython bench
  let s ← get
  -- a workspace that is not text counts as none, and the working directory stands for it
  let workspace := (s.env.get? workspaceName).getD ".".toList
  if (missing bench s.disk workspace).isEmpty then return false
  rebuild bench
  return true

end PrebuiltTools

end FirmwareBuild
