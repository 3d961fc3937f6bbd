import FirmwareBuild.Session

/-! # The configuration directory

The build system reads its configuration from `Conf`. What is missing there is
copied from the templates that come with the tools; what is there is never
touched, so local changes last. -/

namespace FirmwareBuild.ConfDirectory

def name : Text := "Conf".toList

/-- The configuration files, without their endings. -/
def files : List Text := ["target", "tools_def", "build_rule"].map String.toList

def directory (workspace : Bytes) : Bytes := Pathname.join workspace (Utf8.encode name)

def filePath (workspace : Bytes) (file : Text) : Bytes :=
  Pathname.join (directory workspace) (Utf8.encode (file ++ ".txt".toList))

def templatePath (workspace : Bytes) (file : Text) : Bytes :=
  Pathname.join workspace (Utf8.encode ("BaseTools/Conf/".toList ++ file ++ ".template".toList))

/-- Copies the templates of those files that are missing, in order, and gives their names. -/
def copyMissing (workspace : Bytes) : List Text → Run (List Text)
  | [] => return []
  | file :: rest => do
    if (← get).disk.pathExists (filePath workspace file) then copyMissing workspace rest
    else
      let template := templatePath workspace file
      Run.onDisk .copy template (Disk.copy template (filePath workspace file))
      return file :: (← copyMissing workspace rest)

/-- Makes the configuration directory of a workspace complete, and gives the names of the files
that were missing. -/
def seed (workspace : Bytes) : Run (List Text) := do
  Run.onDisk .create (directory workspace) (Disk.makeDirectories (directory workspace))
  copyMissing workspace files

end FirmwareBuild.ConfDirectory
