import FirmwareBuild.Posix.Channel
import FirmwareBuild.Posix.Loader
import FirmwareBuild.Posix.Shell.Complaint
import FirmwareBuild.Posix.Shell.Setting
import FirmwareBuild.Posix.Shell.Signal

/-! # The state of a shell

A shell is a state that commands change. A part of it is the process's own:
variables, arguments, settings, traps, and where each stream leads. The rest is
shared by all processes: the disk, the channels, and what was written. What is
written goes to collectors, each with a level: level zero is the output of the
whole program, and every command whose output becomes text has a level of its own.
A process that is started by another one works on the same state, and when it ends
the first one's own part is put back.

A command in the background is a job. It runs when the shell waits for it, lets
time pass or ends, and until then the shell goes on as if the job took long. -/

namespace FirmwareBuild.Posix

structure Variable where
  value : Option Text := none
  isExported : Bool := false
  isReadOnly : Bool := false
  /-- It is still there when it is unset. -/
  isFixed : Bool := false
  deriving DecidableEq, Repr

inductive Kept where
  | variable (name : Text) (old : Option Variable)
  | settings (old : List Setting)
  deriving DecidableEq, Repr

/-- How far the options among arguments have been looked at: the number of the next argument, and
the number of characters of the one before that were used. -/
structure OptionCursor where
  index : Nat := 1
  offset : Option Nat := none
  deriving DecidableEq, Repr

structure Process where
  pid : Nat := 1
  /-- The number of the shell that the process is a part of. -/
  shellPid : Nat := 1
  status : Nat := 0
  streams : List (Nat × Nat) := []
  level : Nat := 0
  name : Text := []
  args : List Text := []
  vars : List (Text × Variable) := []
  functions : List (Text × Script) := []
  aliases : List (Text × Text) := []
  settings : List Setting := []
  /-- What is done at signals. Nothing is done at a signal with an empty text. -/
  traps : List (Nat × Text) := []
  /-- The signals that have been ignored from the start. -/
  ignored : List Nat := []
  documents : List (Nat × Word) := []
  nextDocument : Nat := 0
  /-- The number of functions around. -/
  depth : Nat := 0
  /-- What the present function has for itself, as it was before, the latest first. Outside
  functions there is nothing. -/
  locals : Option (List Kept) := none
  /-- What was not put back because the shell is about to end, in the order for doing it. -/
  abandoned : List Kept := []
  /-- The number of loops around in the present function. -/
  loops : Nat := 0
  /-- The status of the last script whose output became text in the present command. -/
  answered : Option Nat := none
  /-- A failure is looked at by a command around, so it does not end the script. -/
  watched : Bool := false
  line : Nat := 0
  command : Text := []
  lostOutput : Bool := false
  cursor : OptionCursor := {}
  latestJob : Option Nat := none
  /-- The working directory, by the names that led to it. -/
  directory : Text := []
  trapStatus : Option Nat := none
  /-- The programs that were found, each with the number of directories in front of its own. -/
  remembered : List (Text × Nat) := []
  fileMask : Nat := 18

structure Job where
  pid : Nat
  /-- The job's own part of the state and its working directory when it was started. -/
  process : Process
  cwd : Nat
  body : Script
  status : Option Nat := none
  /-- The shell can wait for it. -/
  isOwn : Bool := true

structure Shell extends Process where
  disk : Disk
  channels : Array Channel
  /-- What was written, the latest first, each with the level of its collector. -/
  written : List (Nat × Text) := []
  lastPid : Nat := 1
  /-- The signals that were sent and not noticed yet, each with the process. -/
  signals : List (Nat × Nat) := []
  /-- The signal that ended the latest program, if one did. -/
  deadlySignal : Option Nat := none
  jobs : List Job := []

inductive Stop where
  | exit
  /-- The shell ends over a mistake, unless a command looks at it. -/
  | mistake
  /-- The process is over, and its traps do not count any more. -/
  | ended
  | leaveFunction
  | leaveLoop (loops : Nat)
  | nextTurn (loops : Nat)
  /-- A pipe has to bring more before anything goes on. -/
  | starved
  | stuck
  deriving DecidableEq, Repr

def Stop.isFinal : Stop → Bool
  | .starved | .stuck => true
  | _ => false

/-- Whether the shell is about to end. -/
def Stop.isEnd : Stop → Bool
  | .exit | .mistake | .ended => true
  | _ => false

abbrev Act := EStateM Stop Shell

/-- The number by which names are put in order. -/
def orderOf (modulus : Nat) (name : Text) : Nat :=
  ((name.headD '\x00').toNat * 16 + Text.total (name.map Char.toNat)) % modulus

/-- Items in the order of the numbers of their names. Items with one number stay in their order. -/
def inOrder {α : Type} (modulus : Nat) (nameOf : α → Text) (items : List α) : List α :=
  (List.range modulus).flatMap fun n => items.filter fun item => orderOf modulus (nameOf item) = n

namespace Shell

def has (shell : Shell) (setting : Setting) : Bool := shell.settings.contains setting

def channel? (shell : Shell) (stream : Nat) : Option (Nat × Channel) := do
  let number ← shell.streams.lookup stream
  return (number, ← shell.channels[number]?)

def input (shell : Shell) : Except IoError Text :=
  match shell.channel? 0 with
  | some (_, channel) => channel.content shell.disk
  | none => .error .badStream

def skipInput (shell : Shell) (count : Nat) : Shell :=
  match shell.channel? 0 with
  | some (number, channel) =>
    { shell with channels := shell.channels.setIfInBounds number (channel.skip count) }
  | none => shell

def setStream (shell : Shell) (stream : Nat) (number : Option Nat) : Shell :=
  let others := shell.streams.filter fun entry => entry.1 ≠ stream
  { shell with streams := (number.map fun number => (stream, number)).toList ++ others }

def openStream (shell : Shell) (stream : Nat) (channel : Channel) : Shell :=
  { shell with channels := shell.channels.push channel }.setStream stream shell.channels.size

def variableAt? (shell : Shell) (name : Text) : Option Variable := shell.vars.lookup name

def valueOf? (shell : Shell) (name : Text) : Option Text :=
  (shell.variableAt? name).bind Variable.value

def putVariable (shell : Shell) (name : Text) (new : Variable) : Shell :=
  { shell with vars := Text.putNamed name new shell.vars }

def dropVariable (shell : Shell) (name : Text) : Shell :=
  { shell with vars := shell.vars.filter fun entry => entry.1 ≠ name }

def putBack (shell : Shell) : Kept → Shell
  | .variable name (some old) => shell.putVariable name old
  | .variable name none => shell.dropVariable name
  | .settings old => { shell with settings := old }

def setValue (shell : Shell) (name value : Text) : Shell :=
  let old := (shell.variableAt? name).getD {}
  shell.putVariable name
    { old with value := some value, isExported := old.isExported || shell.has .exportAll }

def exportVariable (shell : Shell) (name : Text) : Shell :=
  shell.putVariable name { (shell.variableAt? name).getD {} with isExported := true }

def unset (shell : Shell) (name : Text) : Shell :=
  match shell.variableAt? name with
  | some old => if old.isFixed then shell.putVariable name { old with value := none }
    else shell.dropVariable name
  | none => shell

def environment (shell : Shell) : List (Text × Text) :=
  (inOrder 39 Prod.fst shell.vars).filterMap fun (name, v) =>
    if v.isExported then v.value.map fun value => (name, value) else none

def separators (shell : Shell) : Text :=
  (shell.valueOf? "IFS".toList).getD [' ', '\t', '\n']

def home? (shell : Shell) : Option Text := shell.valueOf? "HOME".toList

def searchPath (shell : Shell) : Bytes := toOctets ((shell.valueOf? "PATH".toList).getD [])

/-- The value of a parameter. All arguments together have none here. -/
def parameter? (shell : Shell) (name : Text) : Option Text :=
  match name with
  | ['?'] => some (Text.ofNat shell.status)
  | ['#'] => some (Text.ofNat shell.args.length)
  | ['$'] => some (Text.ofNat shell.shellPid)
  | ['-'] => some (Setting.letters shell.settings)
  | ['!'] => shell.latestJob.map Text.ofNat
  | c :: _ =>
    if c.isDigit then
      match Numeral.ofDigits? 10 name with
      | some 0 => some shell.name
      | some (n + 1) => shell.args[n]?
      | none => none
    else shell.valueOf? name
  | [] => none

/-- The shell of a process that a shell has just started. What it did at signals is forgotten. -/
def forked (shell : Shell) : Shell :=
  let pid := shell.lastPid + 1
  { shell with
    pid, lastPid := pid, jobs := [], traps := shell.traps.filter fun trap => trap.2.isEmpty }

/-- The shell when a process that it has started has ended. Jobs of that process go on. -/
def joined (shell after : Shell) : Shell :=
  let orphans := after.jobs.filter fun job => job.status.isNone
  { shell with
    disk := { after.disk with cwd := shell.disk.cwd }, channels := after.channels
    written := after.written, lastPid := after.lastPid, signals := after.signals
    deadlySignal := after.deadlySignal
    jobs := shell.jobs ++ orphans.map fun job => { job with isOwn := false }
    status := after.status % 256 }

end Shell

end FirmwareBuild.Posix
