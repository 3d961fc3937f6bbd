import FirmwareBuild.Posix.Installed
import FirmwareBuild.Posix.Shell.Complaint
import FirmwareBuild.Posix.Shell.State

/-! # What a shell does

The smallest things that a shell does: writing to its streams, complaining, stopping
over a mistake, doing something in a process of its own, running a native program,
setting variables, and opening files. -/

namespace FirmwareBuild.Posix

namespace Act

def finish (status : Nat) : Act Unit := modify fun s => { s with status }

def isIgnored (s : Shell) (signal : Nat) : Bool :=
  signal ≠ Signal.kill && (s.ignored.contains signal || s.traps.lookup signal == some [])

def isTrapped (s : Shell) (signal : Nat) : Bool :=
  signal ≠ Signal.kill && !s.ignored.contains signal && (s.traps.lookup signal).isSome

/-- Ends the process if a signal was sent to it that does so. -/
def noticeDeath : Act Unit := do
  let s ← get
  unless s.signals.isEmpty do
    let mine := s.signals.filter fun (pid, signal) => pid = s.pid && !isTrapped s signal
    let kept := s.signals.filter fun (pid, signal) => pid ≠ s.pid || isTrapped s signal
    set { s with signals := kept }
    for (_, signal) in mine do
      if Signal.isDeadly signal && !isIgnored s signal then
        modify fun s => { s with status := 128 + signal, deadlySignal := some signal }
        throw .ended

/-- Writes text to where a stream leads, and gives the cause if that is not possible. To write to
a broken pipe ends the process unless it asks for something else. -/
def emit (stream : Nat) (text : Text) : Act (Option IoError) := do
  if text.isEmpty then return none
  let s ← get
  let some (number, channel) := s.channel? stream | return some .badStream
  let change (channel : Channel) (s : Shell) : Shell :=
    { s with channels := s.channels.setIfInBounds number channel }
  match channel with
  | .device .full => return some .noSpace
  | .device _ => return none
  | .collector level =>
    set { s with written := (level, text) :: s.written }
    return none
  | .pipe level room naps =>
    if text.length ≤ room then
      set (change (.pipe level (room - text.length) naps)
        { s with written := (level, text) :: s.written })
      return none
    set (change .broken { s with written := (level, text.take room) :: s.written })
    breakPipe
  | .broken => breakPipe
  | .file number offset mode =>
    if mode = .read then return some .badStream
    let (disk, channel) := Channel.writeFile s.disk number offset mode (toOctets text)
    set (change channel { s with disk })
    return none
  | .text _ _ | .directory => return some .badStream
where
  breakPipe : Act (Option IoError) := do
    modify fun s => { s with signals := s.signals ++ [(s.pid, Signal.brokenPipe)] }
    noticeDeath
    return some .brokenPipe

def print (text : Text) : Act Unit := do
  if (← emit 1 text).isSome then modify fun s => { s with lostOutput := true }

/-- Writes to the stream for complaints. -/
def mutter (text : Text) : Act Unit := do
  let _ ← emit 2 text

def complain (complaint : Complaint) : Act Unit := do
  let s ← get
  let command := if s.command.isEmpty then [] else s.command ++ [':', ' ']
  mutter (s.name ++ ": ".toList ++ Text.ofNat s.line ++ ": ".toList ++ command ++
    complaint.description ++ ['\n'])

def giveUp {α : Type} (complaint : Complaint) : Act α := do
  complain complaint
  finish 2
  throw .mistake

/-- Does something, and puts parts of the state before it back afterwards. -/
def restoring {α : Type} (putBack : Shell → Shell → Shell) (act : Act α) : Act α := fun s =>
  match act s with
  | .ok a t => .ok a (putBack s t)
  | .error stop t => .error stop (putBack s t)

/-- Does something in a process of its own. -/
def asChild (act : Act Unit) : Act Unit := fun s =>
  match act s.forked with
  | .ok () t => .ok () (s.joined t)
  | .error stop t => if stop.isFinal then .error stop t else .ok () (s.joined t)

/-- What something writes that is done in a process of its own, to a channel with a level of its
own, and whether the channel broke. -/
def collect (channel : (level : Nat) → Channel) (act : Act Unit) : Act (Text × Bool) := do
  let s ← get
  let level := s.level + 1
  let number := s.channels.size
  set { s with written := [] }
  asChild do
    modify fun s => { s.openStream 1 (channel level) with level }
    act
  let t ← get
  let (mine, others) := t.written.partition fun entry => entry.1 = level
  set { t with written := others ++ s.written }
  return (mine.reverse.flatMap Prod.snd, t.channels[number]? == some .broken)

/-- The output of something that is done in a process of its own, and the status of that. -/
def capture (act : Act Unit) : Act (Text × Nat) := do
  let before := (← get).status
  let (text, _) ← collect .collector act
  let status := (← get).status
  finish before
  return (text, status)

/-- Does something whose failure is looked at. -/
def watching (act : Act Unit) : Act Unit :=
  restoring (fun s t => { t with watched := s.watched })
    (do modify fun s => { s with watched := true }; act)

def attempt (act : Act Unit) : Act (Option Stop) := fun s =>
  match act s with
  | .ok () t => .ok none t
  | .error stop t => if stop.isFinal then .error stop t else .ok (some stop) t

def workFor (s : Shell) (loaded : Loaded) (env : List (Text × Text)) : Work :=
  let input? := (s.channel? 0).map Prod.snd
  let output? := (s.channel? 1).map Prod.snd
  let sizeOf (number : Nat) : Nat := ((s.disk.nodes[number]?).map Node.size).getD 0
  { name := loaded.argv.headD loaded.name, args := loaded.argv.tail, env, input := s.input
    isWhole := input?.all Channel.isWhole
    inputFile := match input? with
      | some (.file number offset _) => some (number, offset)
      | _ => none
    isOutputOpen := output?.isSome
    room := match output? with
      | some (.pipe _ room _) => some room
      | some .broken => some 0
      | _ => none
    outputFile := match output? with
      | some (.file number offset mode) =>
        some (number, if mode = .append then sizeOf number else offset)
      | _ => none
    fileMask := s.fileMask, disk := s.disk }

/-- Writes texts to their streams, the last one first, and gives the cause of the first failure with
the output. -/
def emitAll : List (Nat × Text) → Act (Option IoError)
  | [] => return none
  | (stream, text) :: rest => do
    let before ← emitAll rest
    let cause ← emit stream text
    return before.or (if stream = 1 then cause else none)

/-- Texts put together that go to the same stream, one after the other. The last one stands first,
before and after. -/
def merged (written : List (Nat × Text)) : List (Nat × Text) :=
  written.foldr (fun (stream, text) done =>
    match done with
    | (other, texts) :: rest =>
      if stream = other then (stream, text :: texts) :: rest else (stream, [text]) :: done
    | [] => [(stream, [text])]) [] |>.map fun (stream, texts) => (stream, texts.reverse.flatten)

/-- Runs something that a native program does. What it gives comes with the environment that it
leaves, unless it ended the program. If it would have to wait for more input, what it has written
does not count unless the program writes as it reads. -/
def runTool {α : Type} (loaded : Loaded) (tool : Tool α) (env : List (Text × Text)) :
    Act (Option (α × List (Text × Text))) := do
  let s ← get
  let (result, after) := match tool (workFor s loaded env) with
    | .ok a after => (some (a, after.env), after)
    | .error () after => (none, after)
  let length (input : Except IoError Text) : Nat := (input.toOption.getD []).length
  modify fun s => { s with disk := after.disk }.skipInput (length s.input - length after.input)
  if after.isHungry && !Program.gradual.contains loaded.name then throw .starved
  finish after.status
  if let some cause := ← emitAll (merged after.written) then
    unless loaded.name = "rev".toList && cause == .badStream do
      finish (max after.status (Program.lossStatus loaded.name))
      let streams := (after.written.reverse.map Prod.fst).dropWhile (· ≠ 1)
      mutter (Program.lossReport loaded.name (loaded.argv.headD loaded.name) cause
        (streams.contains 2))
  if after.isHungry then throw .starved
  return result

def setCursor (value : Text) : Act Unit := do
  match Numeral.count? value with
  | some n => modify fun s => { s with cursor := { index := max n 1 } }
  | none => giveUp (.noNumber value)

/-- Stops if there can be no variable of a name, or it cannot be changed. -/
def checkName (name : Text) : Act Unit := do
  unless isName name do giveUp (.badName name)
  if ((← get).variableAt? name).any Variable.isReadOnly then giveUp (.readOnly name)

def assign (name value : Text) : Act Unit := do
  checkName name
  if name = "OPTIND".toList then setCursor value
  if name = "PATH".toList then modify fun s => { s with remembered := [] }
  modify fun s => s.setValue name value

def unassign (name : Text) : Act Unit := do
  checkName name
  modify fun s => s.unset name

/-- The name in front of the equals sign of an argument, and the value behind it. -/
def nameAndValue (arg : Text) : Text × Option Text :=
  match Text.splitFirst? '=' arg with
  | some (name, value) => (name, some value)
  | none => (arg, none)

/-- Sets a variable that is to be put back, and gives what it was before. -/
def assignForNow (name : Text) (value : Option Text) (isExported : Bool) :
    Act Kept := do
  let s ← get
  let old := s.variableAt? name
  if old.isNone || value.isSome then checkName name
  modify fun s => s.putVariable name
    { old.getD {} with isFixed := true, isExported := isExported || old.any Variable.isExported }
  if let some value := value then assign name value
  return .variable name old

def streamAt? (path : Text) : Option Nat :=
  ([("/dev/stdin", 0), ("/dev/stdout", 1), ("/dev/stderr", 2)].map fun (path, stream) =>
    (String.toList path, stream)).lookup path |>.or do
    Numeral.ofDigits? 10 (← Text.dropStart? "/dev/fd/".toList path)

/-- The disk with a file that is there for a redirection, and the channel to it. -/
def openFile (shell : Shell) (mode : OpenMode) (path : Text) :
    Except IoError (Disk × Channel) :=
  let octets := toOctets path
  let channel (disk : Disk) (number : Nat) : Disk × Channel :=
    match disk.nodes[number]? with
    | some (.device device) => (disk, .device device)
    | some (.directory _ _) | some (.removed _) => (disk, .directory)
    | _ =>
      (if mode = .write ∨ mode = .replace then disk.setData number [] else disk,
        .file number 0 mode)
  if mode = .read then (shell.disk.lookup octets).map fun found => channel shell.disk found.1
  else if mode = .write ∧ shell.has .keepFiles ∧ (shell.disk.node? octets).any Node.isFile then
    .error .alreadyExists
  else
    match Disk.openFile octets (0x1B6 - (0x1B6 &&& shell.fileMask)) shell.disk with
    | .ok number disk => .ok (channel disk number)
    | .error cause _ => .error cause

def openStreamTo (stream : Nat) (mode : OpenMode) (path : Text) : Act Unit := do
  let s ← get
  match (streamAt? path).bind fun other => s.streams.lookup other with
  | some number => set (s.setStream stream (some number))
  | none =>
    match openFile s mode path with
    | .ok (disk, channel) => set ({ s with disk }.openStream stream channel)
    | .error cause =>
      giveUp (if mode = .read then .cannotOpen path cause else .cannotCreate path cause)

def copyStream (stream source : Nat) : Act Unit := do
  let s ← get
  if stream ≠ source then
    match s.streams.lookup source with
    | some number => set (s.setStream stream (some number))
    | none => giveUp (.closedStream source)

end Act

end FirmwareBuild.Posix
