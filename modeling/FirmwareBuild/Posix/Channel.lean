import FirmwareBuild.Disk
import FirmwareBuild.Posix.Shell.Script

/-! # Channels

Where the streams of a process lead. A channel is shared by all streams that lead
to it, in whatever process, so it is what remembers how far a file or a text has
been read or written.

Commands of a pipeline run one after the other, so a pipe is a text on its way: it
takes what the first command writes, as much as would be waiting before the second
one has to read, and breaks when more is written than that. If the second command
reads all of it and wants more, both have to run again with more room. -/

namespace FirmwareBuild.Posix

/-- Where streams lead. -/
inductive Channel where
  | device (device : Device)
  /-- What is written is collected for someone, each with a level. -/
  | collector (level : Nat)
  /-- What is written is collected as long as there is room, and as long as the writer does not take
  more than so many naps, in which the reader could have ended. -/
  | pipe (level room naps : Nat)
  | broken
  /-- A text to read, as far as it is left, and whether nothing would come behind it. -/
  | text (rest : Text) (isWhole : Bool)
  /-- A file by its number, with the number of octets in front of the place that is next. -/
  | file (number offset : Nat) (mode : OpenMode)
  | directory
  deriving DecidableEq, Repr

namespace Channel

/-- As many zero octets as anyone reads. -/
def zeros : Text := List.replicate 0x100000 '\x00'

def content (disk : Disk) : Channel → Except IoError Text
  | device .null => .ok []
  | device _ => .ok zeros
  | text rest _ => .ok rest
  | directory => .error .isADirectory
  | collector _ | pipe _ _ _ | broken => .error .badStream
  | file number offset mode =>
    if mode = .read ∨ mode = .update then
      .ok (ofOctets ((((disk.nodes[number]?).bind Node.data?).getD []).drop offset))
    else .error .badStream

def isWhole : Channel → Bool
  | text _ isWhole => isWhole
  | _ => true

def skip (count : Nat) : Channel → Channel
  | text rest isWhole => text (rest.drop count) isWhole
  | file number offset mode => file number (offset + count) mode
  | channel => channel

def afterNap : Channel → Channel
  | pipe level _ 0 => pipe level 0 0
  | pipe level room (naps + 1) => pipe level room naps
  | channel => channel

/-- The data of a file with other octets from a place on. What was never written is zero. -/
def splice (data : Bytes) (offset : Nat) (new : Bytes) : Bytes :=
  data.take offset ++ List.replicate (offset - data.length) 0 ++ new ++
    data.drop (offset + new.length)

def writeFile (disk : Disk) (number offset : Nat) (mode : OpenMode) (new : Bytes) :
    Disk × Channel :=
  match (disk.nodes[number]?).bind Node.data? with
  | some data =>
    let start := if mode = .append then data.length else offset
    (disk.setData number (splice data start new), file number (start + new.length) mode)
  | none => (disk, file number offset mode)

end Channel

end FirmwareBuild.Posix
