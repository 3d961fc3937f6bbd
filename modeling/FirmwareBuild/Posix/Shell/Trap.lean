import FirmwareBuild.Posix.Shell.Variables

/-! # Traps and jobs

The commands of a shell that say what happens at signals and send them, and how a
signal reaches a process. -/

namespace FirmwareBuild.Posix.Act

def trapsInOrder (s : Shell) : List (Nat × Text) :=
  (List.range Signal.count).filterMap fun signal =>
    (s.traps.lookup signal).map fun action => (signal, action)

def setTrap (signal : Nat) (action : Option Text) : Act Unit := modify fun s =>
  let others := s.traps.filter fun trap => trap.1 ≠ signal
  { s with traps := (action.map fun action => (signal, action)).toList ++ others }

def trapCommand : Builtin := fun args => do
  let (_, args) ← options "" args
  match args with
  | [] =>
    let lines := (trapsInOrder (← get)).map fun (signal, action) =>
      "trap -- ".toList ++ shellQuoted action ++ ' ' :: Signal.name signal ++ ['\n']
    print lines.flatten
    return 0
  | first :: rest =>
    let isReset := rest.isEmpty || (Signal.ofDigits? first).isSome
    let action := if isReset || first = ['-'] then none else some first
    for name in if isReset then args else rest do
      match Signal.ofText? 0 name with
      | some signal => setTrap signal action
      | none =>
        mutter ("trap: ".toList ++ name ++ ": bad trap\n".toList)
        return 1
    return 0

/-- The job that an argument names by a percent sign and a number. -/
def jobOf (arg : Text) : Act Job := do
  let s ← get
  let own := s.jobs.filter Job.isOwn
  let job? := match arg with
    | ['%'] | ['%', '%'] | ['%', '+'] => own.getLast?
    | '%' :: digits => ((Numeral.ofDigits? 10 digits).bind fun n => own[n - 1]?)
    | _ => none
  match job? with
  | some job => return job
  | none => giveUp (.noJob arg)

def send (signal : Nat) (pid : Nat) : Act Bool := do
  let s ← get
  match s.jobs.find? fun job => job.pid = pid with
  | some job =>
    if job.status.isSome then return false
    if Signal.isDeadly signal then
      let ended := { job with status := some (128 + signal) }
      let jobs := s.jobs.map fun (other : Job) => if other.pid = pid then ended else other
      set { s with jobs }
    return true
  | none =>
    if pid = s.pid ∨ pid = s.shellPid ∨ pid = 0 then
      let pid := if pid = 0 then s.pid else pid
      if signal ≠ 0 then set { s with signals := s.signals ++ [(pid, signal)] }
      noticeDeath
      return true
    return false

/-- What the arguments of `kill` ask for: a list of signals, or a signal for some processes. -/
def killRequest (args : List Text) : Act (Option Nat × List Text) := do
  match args with
  | ('-' :: name) :: rest =>
    match Signal.ofText? 1 name with
    | some signal => return (some signal, rest)
    | none =>
      let (letters, rest) ← valuedOptions "l" "s" args
      let mut signal := some Signal.terminate
      for (letter, value) in letters do
        if letter = 'l' then signal := none
        else
          match Signal.ofText? 1 value with
          | some named => if signal.isSome then signal := some named
          | none => giveUp (.noSignal value)
      return (signal, rest)
  | args => return (some Signal.terminate, args)

def killCommand : Builtin := fun args => do
  let usage : Complaint := .usage
    "kill [-s sigspec | -signum | -sigspec] [pid | job]... or\nkill -l [exitstatus]"
  match ← killRequest args with
  | (none, []) =>
    print ("0\n".toList ++ (List.range (Signal.count - 1)).flatMap fun i =>
      Signal.name (i + 1) ++ ['\n'])
    return 0
  | (none, arg :: _) =>
    let n ← numberOf arg
    let signal := if n > 128 then n - 128 else n
    if signal = 0 ∨ signal ≥ Signal.count then giveUp (.noStatus arg)
    print (Signal.name signal ++ ['\n'])
    return 0
  | (some _, []) => giveUp usage
  | (some signal, targets) =>
    let mut status := 0
    for target in targets do
      let pid ← match target with
        | '%' :: _ => Job.pid <$> jobOf target
        | '-' :: digits => numberOf digits
        | digits => numberOf digits
      unless ← send signal pid do
        complain .noProcess
        status := 1
    return status

/-- Shows the jobs. None of them is worth showing. -/
def jobsCommand : Builtin := fun args => do
  let _ ← options "lp" args
  return 0

/-- Goes on with a job that has stopped. None ever does. -/
def resumeCommand : Builtin := fun args => do
  let (_, args) ← options "" args
  match args with
  | [] => giveUp .noCurrentJob
  | arg :: _ => giveUp (.noJob arg)

end FirmwareBuild.Posix.Act
