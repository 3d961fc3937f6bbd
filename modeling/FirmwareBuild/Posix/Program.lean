import FirmwareBuild.Posix.Channel
import FirmwareBuild.Posix.Quoting

/-! # Native programs

What the small programs that scripts and builds rely on have in common. A program
gets its arguments, its environment, its input and the disk, and works until it ends
with a status. Stream one is its output, and stream two gets complaints.

Where the input comes from a command that has not ended, a program may be hungry: it
would have to wait for more. -/

namespace FirmwareBuild.Posix

/-- What a program works with. -/
structure Work where
  name : Text
  args : List Text
  env : List (Text × Text)
  /-- What is left to read, or why nothing can be read. -/
  input : Except IoError Text
  /-- Nothing comes behind the input. -/
  isWhole : Bool := true
  /-- The file that the input comes from, by its number, and the place of the input in it. One can
  go back there. -/
  inputFile : Option (Nat × Nat) := none
  isOutputOpen : Bool := true
  /-- How much output there is room for, if that is limited. -/
  room : Option Nat := none
  /-- The file that the output goes to, by its number, and the place where it goes. -/
  outputFile : Option (Nat × Nat) := none
  /-- The rights that new files do not get. -/
  fileMask : Nat := 18
  disk : Disk
  status : Nat := 0
  /-- What was written, the latest first, each with the stream. -/
  written : List (Nat × Text) := []
  /-- More input would have to be waited for. -/
  isHungry : Bool := false

/-- What is left to read now. What comes from a file is what the file holds by now. -/
def Work.inputNow (w : Work) : Except IoError Text :=
  match w.input, w.inputFile with
  | .ok text, some (number, place) =>
    match w.disk.nodes[number]? with
    | some node =>
      if text.isEmpty then .ok [] else .ok (ofOctets ((node.data?.getD []).drop place))
    | none => .ok text
  | input, _ => input

def Work.afterInput (w : Work) (rest : Text) (count : Nat) : Work :=
  { w with
    input := .ok rest
    inputFile := w.inputFile.map fun (number, place) => (number, place + count) }

/-- Something that a program does. It may end the program. -/
abbrev Tool := EStateM Unit Work

abbrev Program := Tool Unit

def causeText : IoError → Text
  | .notFound => "No such file or directory".toList
  | .permissionDenied => "Permission denied".toList
  | .notPermitted => "Operation not permitted".toList
  | .alreadyExists => "File exists".toList
  | .notADirectory => "Not a directory".toList
  | .isADirectory => "Is a directory".toList
  | .nameTooLong => "File name too long".toList
  | .notEmpty => "Directory not empty".toList
  | .tooManyLinks => "Too many levels of symbolic links".toList
  | .busy => "Device or resource busy".toList
  | .noSpace => "No space left on device".toList
  | .badStream => "Bad file descriptor".toList
  | .brokenPipe => "Broken pipe".toList
  | .execFormat => "Exec format error".toList
  | .argumentsTooLong => "Argument list too long".toList
  | _ => "Invalid argument".toList

namespace Tool

def write (stream : Nat) (text : Text) : Tool Unit :=
  unless text.isEmpty do modify fun w => { w with written := (stream, text) :: w.written }

def say (text : Text) : Tool Unit := write 1 text

/-- Writes something that is no output. -/
def mutter (text : Text) : Tool Unit := write 2 text

/-- Writes a complaint that begins with the name of the program. -/
def complain (text : Text) : Tool Unit := do
  mutter ((← get).name ++ ": ".toList ++ text ++ ['\n'])

/-- Makes the status at least this. -/
def spoil (status : Nat) : Tool Unit := modify fun w => { w with status := max w.status status }

/-- Complains, and goes on. -/
def fail (status : Nat) (text : Text) : Tool Unit := do
  complain text
  spoil status

def quit {α : Type} (status : Nat) : Tool α := do
  modify fun w => { w with status }
  throw ()

def giveUp {α : Type} (status : Nat) (text : Text) : Tool α := do
  complain text
  quit status

/-- Tells where help is. -/
def refer {α : Type} (status : Nat) : Tool α := do
  let name := (← get).name
  mutter ("Try '".toList ++ name ++ " --help' for more information.\n".toList)
  quit status

def misuse {α : Type} (status : Nat) (text : Text) : Tool α := do
  complain text
  refer status

/-- Changes the disk, and gives the cause if that fails. -/
def attempt {α : Type} (change : Disk.Change α) : Tool (Except IoError α) := do
  let w ← get
  match change w.disk with
  | .ok a disk =>
    set { w with disk }
    return .ok a
  | .error cause disk =>
    set { w with disk }
    return .error cause

def about (what : String) (name : Text) (cause : IoError) : Text :=
  what.toList ++ ' ' :: Quoted.always name ++ ": ".toList ++ causeText cause

/-- Changes the disk, and complains of a name if that fails. Whether it did not is given. -/
def doing (what : String) (name : Text) (change : Disk.Change Unit) : Tool Bool := do
  match ← attempt change with
  | .ok () => return true
  | .error cause =>
    fail 1 (about what name cause)
    return false

def node? (path : Text) : Tool (Option Node) := return (← get).disk.node? (toOctets path)

def readInput : Tool (Except IoError Text) := do
  let w ← get
  match w.inputNow with
  | .error cause => return .error cause
  | .ok text =>
    set { w.afterInput [] text.length with isHungry := w.isHungry || !w.isWhole }
    return .ok text

def inputPaths : List Text := ["-", "/dev/stdin", "/dev/fd/0", "/proc/self/fd/0"].map String.toList

/-- What is in a file, or in the input, which a hyphen stands for. -/
def contentOf (path : Text) : Tool (Except IoError Text) := do
  if inputPaths.contains path then readInput
  else match (← get).disk.lookup (toOctets path) with
    | .ok (_, .device .null) => return .ok []
    | .ok (_, .device _) => return .ok Channel.zeros
    | .ok (_, node) =>
      match node.data? with
      | some data => return .ok (ofOctets data)
      | none => return .error .isADirectory
    | .error cause => return .error cause

def namedValue? (name : String) : Tool (Option Text) := return (← get).env.lookup name.toList

end Tool

end FirmwareBuild.Posix
