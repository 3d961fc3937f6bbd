import FirmwareBuild.Disk

/-! # Looking at files

What toolchain detection and the tool check ask about files. A probe answers from
the disk, or from a list of files and directories that stand for one. -/

namespace FirmwareBuild

/-- Answers questions about paths, given the disk at that moment. -/
structure Probe where
  pathExists : Disk → Text → Bool
  isDirectory : Disk → Text → Bool
  readText : Disk → Text → Except IoError Text

namespace Probe

def ofDisk : Probe where
  pathExists disk path := disk.pathExists (Utf8.encode path)
  isDirectory disk path := disk.isDirectory (Utf8.encode path)
  readText disk path := disk.readText (Utf8.encode path)

/-- Answers from a list of files with their texts and a list of directories. A path names one of
them only if it is spelled the same. -/
def ofLists (files : List (Text × Text)) (directories : List Text) : Probe where
  pathExists _ path := (files.lookup path).isSome || directories.contains path
  isDirectory _ path := directories.contains path
  readText _ path :=
    match files.lookup path with
    | some text => .ok text
    | none => .error .notFound

end Probe

end FirmwareBuild
