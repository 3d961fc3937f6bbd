import FirmwareBuild.Session
import FirmwareBuild.Staging.Manifest

/-! # Staging

Copying built files into a second source tree. The entries of a manifest are
followed in order, and where two of them name one destination the later wins. A
failure stops the copying; what is copied already stays. -/

namespace FirmwareBuild.Staging

def load (path : Bytes) : Run Manifest := do
  match (← get).disk.readText path with
  | .error cause => throw (.io .read path cause)
  | .ok text =>
    match Manifest.read? text with
    | some manifest => return manifest
    | none => throw (.manifest path)

/-- A path below the root of a tree, in its absolute form if it has one. -/
def place (disk : Disk) (root : Bytes) (path : Text) : Bytes :=
  let joined := Pathname.join root (Utf8.encode path)
  match disk.absolute joined with
  | .ok full => full
  | .error _ => joined

/-- Copies one file, making the directories above its destination. -/
def stageEntry (sourceRoot destinationRoot : Bytes) (entry : CopyEntry) : Run Unit := do
  let disk := (← get).disk
  let source := place disk sourceRoot entry.source
  let destination := place disk destinationRoot entry.destination
  if let some parent := Pathname.parent? destination then
    Run.onDisk .create parent (Disk.makeDirectories parent)
  Run.say ("Copy:  ".toList ++ Utf8.decodeLossy source)
  Run.say ("  To:  ".toList ++ Utf8.decodeLossy destination)
  Run.onDisk .copy source (Disk.copy source destination)

def stageEntries (sourceRoot destinationRoot : Bytes) : Manifest → Run Unit
  | [] => return ()
  | entry :: rest => do
    stageEntry sourceRoot destinationRoot entry
    stageEntries sourceRoot destinationRoot rest

/-- Copies the files of a manifest from one tree into another. -/
def stage (manifest : Manifest) (sourceRoot destinationRoot : Bytes) : Run Unit := do
  Run.say ("Copy build outputs into ".toList ++ Utf8.decodeLossy destinationRoot ++ " ...".toList)
  stageEntries sourceRoot destinationRoot manifest
  Run.say "Done".toList
  Run.say []

end FirmwareBuild.Staging
