import FirmwareBuild.FrontEnd
import FirmwareBuild.Posix

/-! # The program

The outer layer: it takes the arguments, the environment and the files that a run
can reach, hands them to `FrontEnd.invoke`, prints what that printed and puts the
files that changed where they belong. A run reaches the working directory and what
the arguments name by absolute paths. Commands run on `Posix.machine`; a file
counts as one that may be executed if its first octets say how. -/

namespace FirmwareBuild.Process

def pack (octets : Bytes) : ByteArray := ⟨octets.toArray⟩

def unpack (data : ByteArray) : Bytes := data.data.toList

/-- Octets as a string, for the names of files. -/
def textOf (octets : Bytes) : String := String.ofList (Utf8.decodeLossy octets)

def octetsOf (text : String) : Bytes := Utf8.encode text.toList

/-- The disk with something done to it, or as it was where that fails. -/
def doing (change : Disk.Change Unit) (disk : Disk) : Disk :=
  match change disk with
  | .ok () changed => changed
  | .error _ left => left

def saysHow (data : Bytes) : Bool :=
  (Text.dropStart? [0x23, 0x21] data).isSome || (Text.dropStart? (nativeMark.take 4) data).isSome

/-- Puts a file, or a directory with all that is in it, on a disk. -/
partial def takeUp (path : String) (disk : Disk) : IO Disk := do
  let octets := octetsOf path
  let data? ← try some <$> IO.FS.readBinFile path catch _ => pure none
  match data? with
  | some data =>
    let above := (Pathname.parent? octets).getD []
    let data := unpack data
    let mode := if saysHow data then scriptMode else plainMode
    return doing (Disk.write octets data mode) (doing (Disk.makeDirectories above) disk)
  | none =>
    let names? ← try some <$> namesIn path catch _ => pure none
    match names? with
    | none => return disk
    | some names =>
      let mut disk := doing (Disk.makeDirectories octets) disk
      for name in names do
        disk ← takeUp (path ++ "/" ++ name) disk
      return disk
where
  namesIn (path : String) : IO (List String) := do
    let directory : IO.FS.DirEntry := ⟨path, ""⟩
    return (← directory.root.readDir).toList.map (·.fileName)

/-- Puts the files that one disk holds otherwise than another where they belong. -/
def giveBack (before after : Disk) : IO Unit := do
  let pathTo (location : Location) : String := textOf (Disk.pathOf location)
  for (location, entry) in after.contents do
    unless before.entryAt? location = some entry do
      match entry with
      | .directory => IO.FS.createDirAll (pathTo location)
      | .file data _ => IO.FS.writeBinFile (pathTo location) (pack data)
      | .link _ | .program _ _ | .device _ => pure ()
  for (location, entry) in before.contents.reverse do
    if (after.entryAt? location).isNone then
      match entry with
      | .directory => IO.FS.removeDirAll (pathTo location)
      | _ => IO.FS.removeFile (pathTo location)

def run (args : List String) : IO UInt32 := do
  let cwd := (← IO.currentDir).toString
  let environment ← IO.FS.readBinFile "/proc/self/environ"
  let mut disk := Disk.empty
  for path in cwd :: args.filter (·.startsWith "/") do
    disk ← takeUp path disk
  let start := doing (Disk.enter (octetsOf cwd)) (Posix.install disk)
  let front : FrontEnd :=
    { host := .posix, machine := Posix.machine, defaultWorkspace := octetsOf cwd }
  let env := Overlay.ofStrings (Text.split 0 (unpack environment))
  let (code, session) := front.invoke (args.map octetsOf) { disk := start, env }
  let output ← IO.getStdout
  output.write (pack session.output)
  output.flush
  giveBack start session.disk
  return UInt32.ofNat (code % 256).toNat

end FirmwareBuild.Process

def main (args : List String) : IO UInt32 := FirmwareBuild.Process.run args
