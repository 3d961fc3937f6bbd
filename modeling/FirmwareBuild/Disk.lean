import FirmwareBuild.Disk.IoError
import FirmwareBuild.Disk.Node
import FirmwareBuild.Disk.Pathname
import FirmwareBuild.Text.Utf8

/-! # The disk

The nodes of a machine, the times at which they were changed, and the working
directory that relative paths start from.
A path is followed name by name as an operating system does it: every name but the
last must lead to a directory, `.` stays and `..` goes to the directory above, so
that `x/..` needs an `x`; a symbolic link on the way is replaced by the path that
it stands for. Each operation either gives its answer and the disk after it or the
cause of its failure, and a failure can leave directories behind that were made on
the way. -/

namespace FirmwareBuild

/-- A time in nanoseconds since the beginning of 1970. -/
abbrev Time := Int

/-- The time at which the work on a disk begins. -/
def Time.beginning : Time := 1767225600 * 1000000000

/-- What is known of a machine. -/
structure Disk where
  /-- The nodes by number, the root first. -/
  nodes : Array Node
  cwd : Nat
  now : Time := .beginning
  /-- When nodes were changed, by their numbers. All others were changed at the beginning. -/
  times : List (Nat × Time) := []
  /-- The modes of directories by their numbers, where they are not the usual one. -/
  modes : List (Nat × Nat) := []
  deriving Inhabited

/-- The names that lead from the root to a node. -/
abbrev Location := List Bytes

namespace Disk

abbrev Change := EStateM IoError Disk

def empty : Disk := { nodes := #[.directory 0 []], cwd := 0 }

def root : Nat := 0

def maxName : Nat := 255

def maxPath : Nat := 4095

def maxLinks : Nat := 40

def child? (disk : Disk) (directory : Nat) (name : Bytes) : Option Nat :=
  (disk.nodes[directory]?).bind fun node => node.entries.lookup name

/-! ## Following paths -/

/-- Where a path leads: a name in a directory, and the node of that name if there is one. The
directory itself has the name `.`. -/
structure Place where
  directory : Nat
  name : Bytes
  node : Option Nat
  deriving DecidableEq, Repr

/-- Follows names from a directory. What a link leads to is left to `onLink`, which gets the
directory of the link, the path it stands for and the names behind it. The last name may be one
that is not there, and a link of that name is followed only if `followsLast` says so. -/
def along (onLink : Nat → Bytes → List Bytes → Except IoError Place) (followsLast : Bool)
    (disk : Disk) : Nat → List Bytes → Except IoError Place
  | directory, [] => .ok { directory, name := Pathname.here, node := some directory }
  | directory, name :: rest =>
    match disk.nodes[directory]? with
    | some (.directory parent entries) =>
      if name = Pathname.here then along onLink followsLast disk directory rest
      else if name = Pathname.up then along onLink followsLast disk parent rest
      else if name.length > maxName then .error .nameTooLong
      else match entries.lookup name with
        | none => if rest.isEmpty then .ok { directory, name, node := none } else .error .notFound
        | some number =>
          match disk.nodes[number]?, rest with
          | some (.link target), rest =>
            if rest.isEmpty && !followsLast then .ok { directory, name, node := some number }
            else onLink directory target rest
          | _, [] => .ok { directory, name, node := some number }
          | _, rest => along onLink followsLast disk number rest
    -- a directory that was removed still knows the one above it, and holds nothing
    | some (.removed parent) =>
      if name = Pathname.here then along onLink followsLast disk directory rest
      else if name = Pathname.up then along onLink followsLast disk parent rest
      else .error .notFound
    | _ => .error .notADirectory

/-- The names of a path that has to lead to a directory if it ends in a slash. -/
def strictNames (path : Bytes) : List Bytes :=
  Pathname.names path ++ if Pathname.endsInSlash path then [Pathname.here] else []

def start (directory : Nat) (path : Bytes) : Nat :=
  if Pathname.isAbsolute path then root else directory

/-- Follows names from a directory through at most so many links. -/
def walk (followsLast : Bool) (disk : Disk) : Nat → Nat → List Bytes → Except IoError Place
  | 0 => along (fun _ _ _ => .error .tooManyLinks) followsLast disk
  | links + 1 => along (fun directory target rest =>
      walk followsLast disk links (start directory target) (strictNames target ++ rest))
      followsLast disk

def resolve (followsLast : Bool) (disk : Disk) (path : Bytes) (names : List Bytes) :
    Except IoError Place :=
  if path.contains 0 then .error .zeroInPath
  else if path.isEmpty then .error .notFound
  else if path.length > maxPath then .error .nameTooLong
  else walk followsLast disk maxLinks (start disk.cwd path) names

/-- Where a path leads. All of it but the last name has to exist. -/
def locate (followsLast : Bool) (disk : Disk) (path : Bytes) : Except IoError Place :=
  disk.resolve followsLast path (Pathname.names path)

def look (followsLast : Bool) (disk : Disk) (path : Bytes) : Except IoError (Nat × Node) := do
  let place ← disk.resolve followsLast path (strictNames path)
  match place.node with
  | none => .error .notFound
  | some number =>
    match disk.nodes[number]? with
    | some node => .ok (number, node)
    | none => .error .notFound

def lookup (disk : Disk) (path : Bytes) : Except IoError (Nat × Node) := disk.look true path

/-- The number and the node that a path names, where a link is a node of its own. -/
def lookupLink (disk : Disk) (path : Bytes) : Except IoError (Nat × Node) := disk.look false path

def node? (disk : Disk) (path : Bytes) : Option Node :=
  match disk.lookup path with
  | .ok (_, node) => some node
  | .error _ => none

/-! ## Looking at files -/

def pathExists (disk : Disk) (path : Bytes) : Bool := (disk.node? path).isSome

def isDirectory (disk : Disk) (path : Bytes) : Bool := (disk.node? path).any Node.isDirectory

/-- The data of the file that a path leads to. A device has none that ends. -/
def read (disk : Disk) (path : Bytes) : Except IoError Bytes :=
  match disk.lookup path with
  | .ok (_, node) => if node.isDirectory then .error .isADirectory else .ok (node.data?.getD [])
  | .error cause => .error cause

def readText (disk : Disk) (path : Bytes) : Except IoError Text := do
  match Utf8.decode? (← disk.read path) with
  | some text => .ok text
  | none => .error .notText

/-! ## Names of nodes -/

/-- The names that lead to a directory, found by going up at most so many times. A directory that
was removed has none. -/
def locationFrom (disk : Disk) : Nat → Nat → Option Location
  | 0, _ => none
  | steps + 1, number =>
    if number = root then some []
    else match disk.nodes[number]? with
      | some (.directory parent _) => do
        let above ← locationFrom disk steps parent
        let node ← disk.nodes[parent]?
        let entry ← node.entries.find? fun entry => entry.2 = number
        return above ++ [entry.1]
      | _ => none

def cwdLocation? (disk : Disk) : Option Location := disk.locationFrom disk.nodes.size disk.cwd

def pathOf (location : Location) : Bytes :=
  if location.isEmpty then [Pathname.slash]
  else location.flatMap fun name => Pathname.slash :: name

/-- The working directory as a path, if it was not removed. -/
def cwdPath? (disk : Disk) : Option Bytes := disk.cwdLocation?.map pathOf

def absolute (disk : Disk) (path : Bytes) : Except IoError Bytes :=
  if path.isEmpty then .error .emptyPath
  else match if Pathname.isAbsolute path then some [] else disk.cwdPath? with
    | none => .error .notFound
    | some cwd =>
      match Pathname.absolute? cwd path with
      | some full => .ok full
      | none => .error .emptyPath

/-- The number of the node at a location. Links are not followed. -/
def numberAt? (disk : Disk) : Nat → Location → Option Nat
  | number, [] => some number
  | number, name :: rest =>
    match disk.child? number name with
    | some child => numberAt? disk child rest
    | none => none

/-- What a location names, without what lies below a directory. -/
inductive Entry where
  | file (data : Bytes) (mode : Nat)
  | program (name : Text) (mode : Nat)
  | directory
  | link (target : Bytes)
  | device (device : Device)
  deriving DecidableEq, Repr

def entryOf : Node → Entry
  | .file data mode => .file data mode
  | .program name mode => .program name mode
  | .directory _ _ | .removed _ => .directory
  | .link target => .link target
  | .device device => .device device

def entryAt? (disk : Disk) (location : Location) : Option Entry :=
  ((disk.numberAt? root location).bind fun number => disk.nodes[number]?).map entryOf

/-- Everything at and below a node with its location, at most so many directories deep. -/
def contentsFrom (disk : Disk) : Nat → Location → Nat → List (Location × Entry)
  | 0, _, _ => []
  | depth + 1, location, number =>
    match disk.nodes[number]? with
    | none => []
    | some node =>
      (location, entryOf node) ::
        node.entries.flatMap fun (name, child) =>
          contentsFrom disk depth (location ++ [name]) child

/-- Everything on the disk with its location, a directory in front of what is in it. -/
def contents (disk : Disk) : List (Location × Entry) :=
  disk.contentsFrom disk.nodes.size [] root

/-- Everything below a directory by its path from there, where links are followed, at most so many
directories deep. What is no directory counts as a file; if it cannot be read, as an empty one. -/
def visibleFrom (disk : Disk) (directory : Bytes) : Nat → (path : Bytes) →
    List (Bytes × Option Bytes)
  | 0, _ => []
  | depth + 1, path =>
    let full := if path.isEmpty then directory else Pathname.join directory path
    ((disk.node? full).map Node.entries).getD [] |>.flatMap fun (name, _) =>
      let inner := if path.isEmpty then name else Pathname.join path name
      let place := Pathname.join directory inner
      if disk.isDirectory place then (inner, none) :: visibleFrom disk directory depth inner
      else [(inner, some ((disk.read place).toOption.getD []))]

/-- Everything below a directory by its path from there, in the order of the paths: a file with its
data, and a directory without. -/
def visible (disk : Disk) (directory : Bytes) : List (Bytes × Option Bytes) :=
  (disk.visibleFrom directory maxPath []).mergeSort fun a b => decide (a.1 ≤ b.1)

/-! ## Changes -/

def setNode (disk : Disk) (number : Nat) (node : Node) : Disk :=
  { disk with nodes := disk.nodes.setIfInBounds number node }

def timeOf (disk : Disk) (number : Nat) : Time := (disk.times.lookup number).getD .beginning

def setTime (disk : Disk) (number : Nat) (time : Time) : Disk :=
  { disk with
    times := if time = .beginning then disk.times.filter fun entry => entry.1 ≠ number
      else Text.putNamed number time disk.times }

def touch (disk : Disk) (number : Nat) : Disk := disk.setTime number disk.now

def setEntry (disk : Disk) (directory : Nat) (name : Bytes) (number : Nat) : Disk :=
  match disk.nodes[directory]? with
  | some (.directory parent entries) =>
    (disk.setNode directory (.directory parent (Text.putNamed name number entries))).touch directory
  | _ => disk

/-- The disk with a new node at a place, and its number. -/
def addNode (disk : Disk) (place : Place) (node : Node) : Nat × Disk :=
  let number := disk.nodes.size
  let added := { disk with nodes := disk.nodes.push node }
  (number, (added.touch number).setEntry place.directory place.name number)

def enter (path : Bytes) : Change Unit := fun disk =>
  match disk.lookup path with
  | .ok (number, node) =>
    if node.isDirectory then .ok () { disk with cwd := number } else .error .notADirectory disk
  | .error cause => .error cause disk

def makeDirectory (path : Bytes) : Change Unit := fun disk =>
  match disk.locate false path with
  | .error cause => .error cause disk
  | .ok place =>
    if place.node.isSome then .error .alreadyExists disk
    else .ok () (disk.addNode place (.directory place.directory [])).2

/-- Makes the directory that a path names and those above it, as far as they are missing. -/
def makeDirectories (path : Bytes) : Change Unit := fun disk =>
  if path.isEmpty then .ok () disk
  else match makeDirectory path disk with
    | .ok () made => .ok () made
    | .error .notFound _ =>
      match h : Pathname.parent? path with
      | none => .error .notFound disk
      | some above =>
        have := Pathname.length_parent_lt h
        match makeDirectories above disk with
        | .error cause left => .error cause left
        | .ok () ready =>
          match makeDirectory path ready with
          | .ok () made => .ok () made
          -- a path that ends by going up leads to a directory that stands by now
          | .error cause _ => if ready.isDirectory path then .ok () ready else .error cause ready
    | .error cause _ => if disk.isDirectory path then .ok () disk else .error cause disk
termination_by path.length

/-- The number of the file or device that a path leads to. If there is none, an empty file with
the given mode is made. A path that ends in a slash names no file. -/
def openFile (path : Bytes) (mode : Nat) : Change Nat := fun disk =>
  let isDirectory := Pathname.endsInSlash path
  let names := Pathname.names path
  -- with a slash at the end the last name is not looked at, but the way to it is
  let names := if isDirectory then names.dropLast ++ [Pathname.here] else names
  match disk.resolve true path names with
  | .error cause => .error cause disk
  | .ok place =>
    if isDirectory then .error .isADirectory disk
    else match place.node with
      | none =>
        let (number, disk) := disk.addNode place (.file [] mode)
        .ok number disk
      | some number =>
        if (disk.nodes[number]?).any Node.isDirectory then .error .isADirectory disk
        else .ok number disk

/-- The disk with other data in a file. A device keeps nothing. -/
def setData (disk : Disk) (number : Nat) (data : Bytes) : Disk :=
  match disk.nodes[number]? with
  | some (.file _ mode) | some (.program _ mode) =>
    (disk.setNode number (.file data mode)).touch number
  | _ => disk

/-- The mode of a node. A link allows everything. -/
def modeOf (disk : Disk) (number : Nat) : Nat :=
  match disk.nodes[number]? with
  | some (.file _ mode) | some (.program _ mode) => mode
  | some (.link _) => 0x1FF
  | some (.device _) => 0x1B6
  | _ => (disk.modes.lookup number).getD scriptMode

def setMode (disk : Disk) (number : Nat) (mode : Nat) : Disk :=
  match disk.nodes[number]? with
  | some (.file data _) => disk.setNode number (.file data mode)
  | some (.program name _) => disk.setNode number (.program name mode)
  | some node =>
    if node.isDirectory then
      { disk with
        modes := if mode = scriptMode then disk.modes.filter fun entry => entry.1 ≠ number
          else Text.putNamed number mode disk.modes }
    else disk
  | none => disk

/-- The disk with what one node holds in another one too. What is no file holds nothing. -/
def copyData (disk : Disk) (source target : Nat) : Disk :=
  match disk.nodes[source]?, disk.nodes[target]? with
  | some (.program name _), some (.file _ mode) | some (.program name _), some (.program _ mode) =>
    (disk.setNode target (.program name mode)).touch target
  | some node, _ => disk.setData target (node.data?.getD [])
  | none, _ => disk

/-- Makes a file hold `data`, whatever it held before. One that is new gets the given mode. -/
def write (path data : Bytes) (mode : Nat) : Change Unit := fun disk =>
  match openFile path mode disk with
  | .ok number disk => .ok () (disk.setData number data)
  | .error cause disk => .error cause disk

/-- Copies a file, with its mode. The source is looked up first; the target is emptied before the
source is read, so a file copied onto itself ends up empty. -/
def copy (source target : Bytes) : Change Unit := fun disk =>
  match disk.lookup source with
  | .error cause => .error cause disk
  | .ok (number, node) =>
    match node.mode? with
    | none => .error .notAFile disk
    | some mode =>
      match openFile target mode disk with
      | .error cause left => .error cause left
      | .ok other opened =>
        let emptied := (opened.setData other []).setMode other mode
        if opened.nodes[other]? = some (.device .full) && node.size > 0 then .error .noSpace emptied
        else .ok () (emptied.copyData number other)

def dropEntry (disk : Disk) (directory : Nat) (name : Bytes) : Disk :=
  match disk.nodes[directory]? with
  | some (.directory parent entries) =>
    (disk.setNode directory
      (.directory parent (entries.filter fun entry => entry.1 ≠ name))).touch directory
  | _ => disk

def unlink (path : Bytes) : Change Unit := fun disk =>
  match disk.resolve false path (strictNames path) with
  | .error cause => .error cause disk
  | .ok place =>
    match place.node with
    | none => .error .notFound disk
    | some number =>
      if (disk.nodes[number]?).any Node.isDirectory then .error .isADirectory disk
      else .ok () (disk.dropEntry place.directory place.name)

end Disk

end FirmwareBuild
