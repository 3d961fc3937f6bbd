import FirmwareBuild.Posix.Loader
import FirmwareBuild.Posix.Shell.Variables

/-! # Names of commands

What a name means where a command stands, and the commands of a shell that tell. -/

namespace FirmwareBuild.Posix

/-- The commands of the shell besides those that no function can take the name of. -/
def regularCommands : List Text :=
  let names := ["[", "alias", "bg", "cd", "chdir", "command", "echo", "false", "fg", "getopts",
    "hash", "jobs", "kill", "printf", "pwd", "read", "test", "true", "type", "ulimit", "umask",
    "unalias", "wait"]
  names.map String.toList

def isOwnCommand (name : Text) : Bool :=
  specialCommands.contains name || regularCommands.contains name

/-- The commands whose arguments may be assignments. -/
def declaringCommands : List Text := ["alias", "export", "local", "readonly"].map String.toList

inductive Meaning where
  | reserved
  | alias (value : Text)
  | function
  | command (isSpecial : Bool)
  /-- A program, and whether it had been found before. -/
  | program (path : Text) (isRemembered : Bool)
  deriving DecidableEq, Repr

namespace Act

def standardPath : Text := "/usr/local/sbin:/usr/local/bin:/usr/sbin:/usr/bin:/sbin:/bin".toList

def filesOf (s : Shell) (standard : Bool) (name : Text) : List Bytes :=
  if name.contains '/' then [toOctets name]
  else candidates (Text.split 0x3A (if standard then toOctets standardPath else s.searchPath))
    (toOctets name)

/-- The files from the one on that a command means, or why there is none. One that was found before
is not looked for again. -/
def filesFrom (s : Shell) (standard : Bool) (name : Text) : Except IoError (List Bytes) :=
  let files := filesOf s standard name
  if name.contains '/' then .ok files
  else match if standard then none else s.remembered.lookup name with
    | some passed => .ok (files.drop passed)
    | none => fromExecutable s.disk .notFound files

/-- Looks for a program, and notes where it was found along the search path. -/
def findProgram (standard : Bool) (name : Text) : Act (Except IoError (List Bytes)) := do
  let s ← get
  let found := filesFrom s standard name
  if let .ok files := found then
    unless standard || name.contains '/' do
      let passed := (filesOf s standard name).length - files.length
      set { s with remembered := Text.putNamed name passed s.remembered }
  return found

def meaningOf? (standard : Bool) (name : Text) : Act (Option Meaning) := do
  let s ← get
  if reservedWords.contains (String.ofList name) then return some .reserved
  if let some value := s.aliases.lookup name then return some (.alias value)
  if (s.functions.lookup name).isSome then return some .function
  if isOwnCommand name then return some (.command (specialCommands.contains name))
  if name.contains '/' then
    return if s.disk.pathExists (toOctets name) then some (.program name false) else none
  let isRemembered := !standard && (s.remembered.lookup name).isSome
  match ← findProgram standard name with
  | .ok files => return some (.program (ofOctets (files.headD [])) isRemembered)
  | .error _ => return none

def describe (standard : Bool) (name : Text) : Act Nat := do
  let said (text : String) : Act Nat := do
    print (name ++ text.toList ++ ['\n'])
    return 0
  match ← meaningOf? standard name with
  | some .reserved => said " is a shell keyword"
  | some (.alias value) => print (name ++ " is an alias for ".toList ++ value ++ ['\n']); return 0
  | some .function => said " is a shell function"
  | some (.command isSpecial) =>
    said (if isSpecial then " is a special shell builtin" else " is a shell builtin")
  | some (.program path isRemembered) =>
    print (name ++ (if isRemembered then " is a tracked alias for " else " is ").toList ++ path ++
      ['\n'])
    return 0
  | none =>
    let _ ← said ": not found"
    return 127

def showCommand (standard : Bool) (name : Text) : Act Nat := do
  match ← meaningOf? standard name with
  | some (.alias value) => print ("alias ".toList ++ definition name value ++ ['\n']); return 0
  | some (.program path _) => print (path ++ ['\n']); return 0
  | some _ => print (name ++ ['\n']); return 0
  | none => return 127

def typeCommand : Builtin := fun args => do
  let mut status := 0
  for name in args do
    if (← describe false name) ≠ 0 then status := 127
  return status

/-- Finds programs beforehand, forgets them, or lists those that were found. -/
def hashCommand : Builtin := fun args => do
  let (letters, rest) ← options "r" args
  if letters.contains 'r' then
    modify fun s => { s with remembered := [] }
    return 0
  let s ← get
  if rest.isEmpty then
    print ((inOrder 31 id (s.remembered.map Prod.fst)).flatMap fun name =>
      ofOctets (((filesFrom s false name).toOption.getD []).headD []) ++ ['\n'])
    return 0
  let mut status := 0
  for name in rest do
    modify fun s => { s with remembered := s.remembered.filter fun entry => entry.1 ≠ name }
    if ((← get).functions.lookup name).isNone && !isOwnCommand name then
      if let .error cause := ← findProgram false name then
        complain (.program name cause)
        status := 1
  return status

end Act

end FirmwareBuild.Posix
