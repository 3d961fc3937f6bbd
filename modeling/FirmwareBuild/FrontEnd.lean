import FirmwareBuild.Build.Flags
import FirmwareBuild.Build.Phases
import FirmwareBuild.FrontEnd.CommandLine
import FirmwareBuild.Settings.File
import FirmwareBuild.Staging

/-! # The front end

The four things that can be asked for: a build, the toolchain of the host, the
environment of a build as a script, and staging. Each is a step of a run that
gives an exit code; `FrontEnd.invoke` starts from the arguments and turns an error
into a line of output and a code. -/

namespace FirmwareBuild

/-- The machine that the front end runs on: its family, what starts programs, and the workspace
of a run that names none. -/
structure FrontEnd where
  host : Host
  machine : Machine
  defaultWorkspace : Bytes

namespace FrontEnd

def bench (front : FrontEnd) : Workbench where
  host := front.host
  runner := .onMachine front.machine
  probe := .ofDisk

def enterWorkspace (front : FrontEnd) (requested : Option Bytes) : Run Bytes :=
  Workspace.enter (requested.getD front.defaultWorkspace)

/-- Builds the payload. Flags that mean nothing end the run before it does anything. -/
def build (front : FrontEnd) (requested : Option Bytes) (flags : List Text) : Run Int := do
  match Flags.read flags with
  | .error e =>
    Run.say e.message
    return -1
  | .ok choice =>
    let root ← front.enterWorkspace requested
    let settings ← Settings.load root
    let toolchain ← Preparation.prepare front.bench settings.tools root
    Run.say ("Using ".toList ++ toolchain.identifier ++ ", Version ".toList ++ toolchain.version)
    Phases.run front.bench settings.build
      { target := choice.target, hardware := choice.hardware, toolchain } root
    return 0

def showToolchain (front : FrontEnd) : Run Int := do
  let toolchain ← Toolchain.resolve front.bench
  if toolchain.isResolved then
    Run.say ("[OK] ".toList ++ toolchain.identifier ++ " (version ".toList ++
      toolchain.version ++ [')'])
    if let some installation := toolchain.installation then
      Run.say ("     ".toList ++ installation.variableName ++ '=' :: installation.path)
    return 0
  else
    Run.say ("[FAIL] no supported toolchain found on ".toList ++ front.host.name)
    return 1

def assignments (shell : ShellKind) (vars : List (Bytes × Bytes)) : List Text :=
  vars.map fun (name, value) => shell.assignment (Utf8.decodeLossy name) (Utf8.decodeLossy value)

/-- Shows how the environment of a build differs from the inherited one. -/
def showEnvironment (front : FrontEnd) (requested : Option Bytes) (shell : ShellKind) :
    Run Int := do
  let root ← front.enterWorkspace requested
  let settings ← Settings.load root
  let inherited := (← get).env
  let toolchain ← Preparation.prepare front.bench settings.tools root
  Workspace.pin root
  Run.say (shell.comment ++ ' ' :: toolchain.identifier ++ ' ' :: toolchain.version)
  (assignments shell ((← get).env.changesSince inherited)).forM Run.say
  return 0

def run (front : FrontEnd) (invocation : Invocation) : Run Int := do
  match invocation.subcommand with
  | none => front.build invocation.workspace invocation.flags
  | some .toolchain => front.showToolchain
  | some (.env shell) => front.showEnvironment invocation.workspace shell
  | some (.stage manifest source destination) =>
    Staging.stage (← Staging.load manifest) source destination
    return 0

def misuseCode : Misuse → Int
  | .help => 0
  | _ => 2

/-- Runs the front end from its arguments on. An error is printed with its causes. -/
def invoke (front : FrontEnd) (arguments : List Bytes) (session : Session) : Int × Session :=
  match CommandLine.read arguments with
  | .error misuse => (misuseCode misuse, session)
  | .ok invocation =>
    match front.run invocation session with
    | .ok code session => (code, session)
    | .error e session =>
      (1, { session with output := session.output ++ Utf8.encode (e.report ++ ['\n']) })

end FrontEnd

end FirmwareBuild
