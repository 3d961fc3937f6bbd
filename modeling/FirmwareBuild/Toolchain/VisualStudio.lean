import FirmwareBuild.Toolchain

/-! # Visual Studio installations

Releases from 2017 on are found by asking `vswhere`, the locator that the
installer puts under the program files. The last of the places it lists counts,
if it is a directory and holds the file with the version of its tools. Older
releases are known only by the variable that names their common tools. -/

namespace FirmwareBuild.VisualStudio

def programFilesName : Text := "ProgramFiles(x86)".toList

def locator (programFiles : Text) : Text :=
  programFiles ++ "/Microsoft Visual Studio/Installer/vswhere.exe".toList

def locatorCommand (programFiles : Text) : Command :=
  .captured [locator programFiles, "-all".toList, "-property".toList, "installationPath".toList]

/-- The place an answer of the locator names: the last line that, trimmed, is a directory. -/
def listedPlace? (isDirectory : Text → Bool) (listing : Text) : Option Text :=
  ((Text.lines listing).map Text.trim).filter (fun line => !line.isEmpty && isDirectory line)
    |>.getLast?

def versionFile (place : Text) : Text :=
  Host.windows.join place ["VC\\Auxiliary\\Build\\Microsoft.VCToolsVersion.default.txt".toList]

/-- The releases found through the locator, the newest first. -/
def locatedYears : List Text := ["2019".toList, "2017".toList]

def isPlaceOf (place year : Text) : Bool :=
  Text.holds ("\\Microsoft Visual Studio\\".toList ++ year ++ ['\\']) place

def yearOf? (place : Text) : Option Text := locatedYears.find? (isPlaceOf place)

/-- The variable that the build system reads the place of a release from. -/
def prefixVariable (year : Text) : Text := "VS".toList ++ year ++ "_PREFIX".toList

def located (place year versionText : Text) : Toolchain :=
  let version := Text.trim versionText
  { identifier := "VS".toList ++ year
    version
    installation := some
      { variableName := prefixVariable year
        path := Host.windows.join place
          ["VC".toList, "Tools".toList, "MSVC".toList, version] ++ ['\\'] } }

/-- The older releases and the variables that name their common tools, the newest first. -/
def legacyReleases : List (Text × Text) :=
  [("2015".toList, "VS140COMNTOOLS".toList), ("2013".toList, "VS120COMNTOOLS".toList)]

/-- The version in a path of an older release: what follows the product name in the last
component that starts with it. -/
def versionInPath? (path : Text) : Option Text :=
  ((Text.split '\\' path).filterMap (Text.dropStart? "Microsoft Visual Studio ".toList)).getLast?

def legacy (year commonTools : Text) : Toolchain where
  identifier := "VS".toList ++ year ++ "x86".toList
  version := (versionInPath? commonTools).getD year
  installation := some
    { variableName := prefixVariable year
      path := Host.windows.join commonTools ["..".toList, "..".toList] ++ ['\\'] }

/-- The newest older release that the overlay names. -/
def legacyIn (env : Overlay) : Toolchain :=
  (legacyReleases.findSome? fun (year, name) => (env.get? name).map (legacy year)).getD
    .unresolved

/-- The release that the locator knows, if it is one of those located that way. -/
def find? (bench : Workbench) : Run (Option Toolchain) := do
  let s ← get
  let some programFiles := s.env.get? programFilesName | return none
  unless bench.probe.pathExists s.disk (locator programFiles) do return none
  let listing ← bench.runner (locatorCommand programFiles)
  let disk := (← get).disk
  let some place := listedPlace? (bench.probe.isDirectory disk) listing | return none
  unless bench.probe.pathExists disk (versionFile place) do return none
  let some year := yearOf? place | return none
  match bench.probe.readText disk (versionFile place) with
  | .ok versionText => return some (located place year versionText)
  | .error cause => throw (.io .read (Utf8.encode (versionFile place)) cause)

def resolve (bench : Workbench) : Run Toolchain := do
  match ← find? bench with
  | some toolchain => return toolchain
  | none => return legacyIn (← get).env

end FirmwareBuild.VisualStudio
