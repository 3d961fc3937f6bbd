import FirmwareBuild.Text

/-! # Nodes

What a disk is made of: files, directories, symbolic links and devices. A node has
a number and no name. Names are in directories, each with the number of a node, so
a file can have several names, or none any more while something still works with
it. A directory also knows the one that it is in. -/

namespace FirmwareBuild

/-- Something that can be read or written like a file and keeps nothing. -/
inductive Device where
  | null
  /-- Takes everything and gives zero octets without end. -/
  | zero
  /-- Has no room for anything and gives zero octets without end. -/
  | full
  deriving DecidableEq, Repr

inductive Node where
  /-- A file holds data. Its mode is a number whose binary digits are rights. -/
  | file (data : Bytes) (mode : Nat)
  /-- A file that holds a native program, which is known by its name. -/
  | program (name : Text) (mode : Nat)
  | directory (parent : Nat) (entries : List (Bytes × Nat))
  | link (target : Bytes)
  | device (device : Device)
  /-- A directory that was removed. Something may still be in it. -/
  | removed (parent : Nat)
  deriving DecidableEq, Repr, Inhabited

/-- The mode of a file that everyone may read. -/
def plainMode : Nat := 0x1A4

/-- The mode of a file that everyone may read and execute. -/
def scriptMode : Nat := 0x1ED

/-- Whether a mode lets someone execute the file. -/
def isExecutableMode (mode : Nat) : Bool := mode &&& 0x49 != 0

/-- How the data of a native program begins. Nothing is known of the rest. -/
def nativeMark : Bytes := [0x7F, 0x45, 0x4C, 0x46, 2, 1, 1, 0, 0, 0, 0, 0, 0, 0, 0, 0]

namespace Node

def isDirectory : Node → Bool
  | .directory _ _ | .removed _ => true
  | _ => false

def isFile : Node → Bool
  | .file _ _ | .program _ _ => true
  | _ => false

def data? : Node → Option Bytes
  | .file data _ => some data
  | .program _ _ => some nativeMark
  | _ => none

def size (node : Node) : Nat := (node.data?.map List.length).getD 0

def mode? : Node → Option Nat
  | .file _ mode | .program _ mode => some mode
  | _ => none

def isExecutable (node : Node) : Bool := node.mode?.any isExecutableMode

def entries : Node → List (Bytes × Nat)
  | .directory _ entries => entries
  | _ => []

end Node

end FirmwareBuild
