import FirmwareBuild.Posix.Installed

/-! # Loading programs

What becomes of a command's first word: the file it names, found along the search
path if it is no path, and what has to run for that file. A native program runs
itself; a file that begins with `#!` names the program that reads it; any other
file is left to the shell, where the one who starts it falls back on that. -/

namespace FirmwareBuild.Posix

def shellName : Text := "sh".toList

def shellPath : Bytes := Utf8.encode "/bin/sh".toList

/-- The directories that are searched when no search path is given. -/
def defaultSearch : Bytes := Utf8.encode "/bin:/usr/bin".toList

/-- A native program that is about to run, with its arguments, its own name in front. -/
structure Loaded where
  name : Text
  argv : List Text

/-- The number of octets at the start of a script in which its interpreter is looked for. -/
def headLength : Nat := 256

def isBlank (octet : UInt8) : Bool := octet == 0x20 || octet == 0x09

/-- What the head of a script says behind `#!`: its first line, or what there is of it if the line
goes on behind the head. Nothing counts that could be a path without its end. -/
def headLine? (head : Bytes) : Option Bytes :=
  if (head.takeWhile (· != 0)).contains 0x0A then some (head.takeWhile (· != 0x0A))
  else if (head.dropWhile isBlank).any fun octet => isBlank octet || octet == 0 then
    some head.dropLast
  else none

/-- The interpreter that a script names behind `#!`, with the one argument it can be given. What is
behind the end of a short script counts as zero octets, which end either of them. -/
def interpreterLine? (data : Bytes) : Option (Bytes × Option Bytes) := do
  let rest ← Text.dropStart? [0x23, 0x21] data
  let room := headLength - 2
  let line ← headLine? (rest.take room ++ List.replicate (room - rest.length) 0)
  let line := Text.dropEnds isBlank line
  if line.isEmpty then none
  let interpreter := line.takeWhile fun octet => !isBlank octet && octet != 0
  let behind := line.drop interpreter.length
  let argument := (behind.dropWhile isBlank).takeWhile (· != 0)
  some (interpreter, if behind.head?.any isBlank then some argument else none)

def maxArgument : Nat := 131071

/-- The most octets that all of them can take up, where each needs nine more than it has. -/
def maxArguments : Nat := 2097152

def isTooLong (argv env : List Text) : Bool :=
  let lengths := (argv ++ env).map List.length
  lengths.any (· > maxArgument) || Text.total (lengths.map (· + 9)) > maxArguments

def environmentTexts (env : List (Text × Text)) : List Text :=
  env.map fun (name, value) => name ++ '=' :: value

/-- What runs for a file, through at most so many interpreters and itself. A script that names no
path names the working directory, which cannot run. -/
def loadFile (disk : Disk) (env : List Text) (steps : Nat) (path : Bytes) (argv : List Text) :
    Except IoError Loaded :=
  match disk.lookup path with
  | .error cause => .error cause
  | .ok (_, node) =>
    if !node.isExecutable then .error .permissionDenied
    else if isTooLong argv env then .error .argumentsTooLong
    else match steps, node with
      | 0, _ => .error .tooManyLinks
      | _, .program name _ => .ok { name, argv }
      | steps + 1, node =>
        match interpreterLine? (node.data?.getD []) with
        | none => .error .execFormat
        | some ([], _) => .error .permissionDenied
        | some (interpreter, argument) =>
          loadFile disk env steps interpreter
            (ofOctets interpreter :: (argument.map ofOctets).toList ++ ofOctets path :: argv.tail)

/-- The number of files that one run can go through: a native program and the scripts in front. -/
def interpreterDepth : Nat := 6

/-- What runs for a file that a shell takes over if nothing else does. -/
def loadOrShell (disk : Disk) (env : List Text) (path : Bytes) (argv : List Text) :
    Except IoError Loaded :=
  match loadFile disk env interpreterDepth path argv with
  | .error .execFormat =>
    loadFile disk env interpreterDepth shellPath
      (ofOctets shellPath :: ofOctets path :: argv.tail)
  | result => result

/-! ## Looking for names -/

/-- The files that a name can mean along a list of directories. An empty one is the working
directory. -/
def candidates (directories : List Bytes) (name : Bytes) : List Bytes :=
  directories.map fun directory =>
    if directory.isEmpty then name else directory ++ Pathname.slash :: name

/-- The directories of a search path. What is too long for a path is passed over; what follows it
then counts as one more, which is empty. -/
def directoriesOf (searchPath : Bytes) : List Bytes :=
  replaceLong (Text.split 0x3A searchPath)
where
  replaceLong : List Bytes → List Bytes
    | [] => []
    | [directory] => if directory.length > Disk.maxPath then [] else [directory]
    | directory :: rest =>
      (if directory.length > Disk.maxPath then [] else directory) :: replaceLong rest

/-- What runs for the first of some files that can run. One that may not be run is passed over, but
it is what the failure is about when nothing else is found. -/
def loadAny (disk : Disk) (env : List Text) (argv : List Text) :
    (refused : Bool) → (last : IoError) → List Bytes → Except IoError Loaded
  | refused, last, [] => .error (if refused then .permissionDenied else last)
  | refused, _, path :: rest =>
    match loadOrShell disk env path argv with
    | .ok loaded => .ok loaded
    | .error .permissionDenied => loadAny disk env argv true .permissionDenied rest
    | .error .notFound => loadAny disk env argv refused .notFound rest
    | .error .notADirectory => loadAny disk env argv refused .notADirectory rest
    | .error cause => .error cause

/-- What runs for a command. A path is followed, and the shell takes a file over only for a caller
that falls back on it; a name is looked for along the search path. -/
def load (disk : Disk) (env : List Text) (searchPath : Option Bytes) (fallsBack : Bool)
    (argv : List Text) : Except IoError Loaded :=
  let program := toOctets (argv.headD [])
  if program.isEmpty then .error .notFound
  else if Pathname.slash ∈ program then
    if fallsBack then loadOrShell disk env program argv
    else loadFile disk env interpreterDepth program argv
  else if program.length > Disk.maxName then .error .nameTooLong
  else loadAny disk env argv false .notFound
    (candidates (directoriesOf (searchPath.getD defaultSearch)) program)

/-! ## What a shell runs

A shell looks for a file before it tries to run it. It reads one itself only if the
first line looks like text, and goes on to other files whatever is wrong. -/

def isTextual (octet : UInt8) : Bool :=
  !(octet < 9 || (16 ≤ octet && octet < 32 && octet != 27) || octet == 127)

/-- Whether data looks like text: its first line does, as far as one looks. -/
def isText (data : Bytes) : Bool := ((data.take 128).takeWhile (· != 0x0A)).all isTextual

def isAbsence (cause : IoError) : Bool := cause = .notFound || cause = .notADirectory

/-- The files from the first one on that may be executed, or why there is none. -/
def fromExecutable (disk : Disk) : (last : IoError) → List Bytes → Except IoError (List Bytes)
  | last, [] => .error last
  | last, path :: rest =>
    match disk.lookup path with
    | .ok (_, node) =>
      if node.isExecutable then .ok (path :: rest) else fromExecutable disk .permissionDenied rest
    | .error cause => fromExecutable disk (if isAbsence cause then last else cause) rest

def loadFirst (disk : Disk) (env : List Text) (argv : List Text) :
    (last : IoError) → List Bytes → Except IoError Loaded
  | last, [] => .error last
  | last, path :: rest =>
    let isScript := isText ((disk.read path).toOption.getD [])
    let loaded := if isScript then loadOrShell disk env path argv
      else loadFile disk env interpreterDepth path argv
    match loaded with
    | .ok loaded => .ok loaded
    | .error cause => loadFirst disk env argv (if isAbsence cause then last else cause) rest

/-! ## What is installed -/

def envName : Text := "env".toList

def nativeDirectory : Bytes := Utf8.encode "/usr/bin".toList

def systemDirectories : List String := ["/usr/bin", "/tmp", "/dev"]

def systemLinks : List (String × String) := [("/bin", "usr/bin"), ("/usr/bin/sh", "dash")]

def systemDevices : List (String × Device) :=
  [("null", .null), ("zero", .zero), ("full", .full)]

/-- The disk with a change, if that succeeds. -/
def changed (disk : Disk) (change : Disk.Change Unit) : Disk :=
  match change disk with
  | .ok _ disk | .error _ disk => disk

def withNode (disk : Disk) (path : Bytes) (node : Node) : Disk :=
  match disk.locate false path with
  | .ok place => if place.node.isNone then (disk.addNode place node).2 else disk
  | .error _ => disk

/-- Puts the native programs and all that they rely on where they are looked for. -/
def install (disk : Disk) : Disk :=
  let octets (path : String) : Bytes := Utf8.encode path.toList
  let disk := systemDirectories.foldl (fun disk path =>
    changed disk (Disk.makeDirectories (octets path))) disk
  let files := [("dash".toList, shellName), (envName, envName)] ++
    Program.installed.map fun (name, _) => (name, name)
  let disk := files.foldl (fun disk (file, name) =>
    withNode disk (Pathname.join nativeDirectory (toOctets file)) (.program name scriptMode)) disk
  let disk := systemLinks.foldl (fun disk (path, target) =>
    changed disk (Disk.makeLink (octets target) (octets path))) disk
  systemDevices.foldl (fun disk (name, device) =>
    withNode disk (octets ("/dev/" ++ name)) (.device device)) disk

end FirmwareBuild.Posix
