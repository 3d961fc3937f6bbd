import FirmwareBuild.Build
import FirmwareBuild.Workspace.Preparation

/-! # The phases of a build

First the tools and the configuration directory are made complete, then the build
system runs, and then there is a place for what follows a build. The phases run
in this order, and the first failure ends the run. -/

namespace FirmwareBuild.Phases

/-- Makes sure that the tools are there and the configuration directory is complete. -/
def prebuild (bench : Workbench) (workspace : Bytes) : Run Unit := do
  let _ ← PrebuiltTools.ensure bench
  let root := ((← get).env.getBytes? workspaceName).getD workspace
  let _ ← ConfDirectory.seed root
  Run.say "End of PreBuild...".toList

def build (bench : Workbench) (parameters : BuildParameters) (request : Request) : Run Unit := do
  let _ ← Run.mapError (PrebuiltTools.wrapFailure .payloadBuild)
    (bench.runner (request.command bench.host parameters))
  Run.say "End of Build...".toList

/-- What follows a build, which is nothing so far. -/
def postbuild : Run Unit := do
  Run.say "Start of PostBuild ...".toList
  Run.say "End of PostBuild...".toList

/-- All phases, in a workspace that the environment names from now on. -/
def run (bench : Workbench) (parameters : BuildParameters) (request : Request)
    (workspace : Bytes) : Run Unit := do
  Workspace.pin workspace
  prebuild bench workspace
  build bench parameters request
  postbuild

end FirmwareBuild.Phases
