import FirmwareBuild.Session

/-! # Running commands

A runner carries out one command in a session and answers with its output, if
that is kept, and with the empty text otherwise. Two kinds of runner exist: one
that follows a script of replies and touches nothing but the record of launches,
and one that starts programs on a machine.

A command that cannot be started and a command that exits with a status other
than zero are two different errors, and it is left to the caller whether either
of them ends the run. -/

namespace FirmwareBuild

abbrev Runner := Command → Run Text

inductive Reply where
  | output (text : Text)
  | exit (status : Nat)
  | notFound
  deriving DecidableEq, Repr

inductive Outcome where
  | unstarted (cause : IoError)
  | exited (status : Nat) (output : Bytes)
  deriving DecidableEq, Repr

/-- What starts programs: the arguments, the whole environment and the disk decide the outcome
and the disk afterwards. -/
abbrev Machine := List Text → List (Bytes × Bytes) → Disk → Outcome × Disk

namespace Runner

/-- Follows a script that gives a reply for every command line. -/
def scripted (script : Text → Reply) : Runner := fun command => do
  Run.noteLaunch command
  match script command.line with
  | .output text => return text
  | .exit status => throw (.commandFailed command.line status)
  | .notFound => throw (.launch command.line .notFound)

/-- The notice that a command failed, unless its line was printed before it ran. -/
def diagnose (command : Command) : Run Unit := do
  unless command.echo do
    Run.say "Error in running process:".toList
    Run.say ("  ".toList ++ command.line)

/-- Starts commands on a machine. The program gets exactly the arguments of the command and
exactly the variables of the overlay. -/
def onMachine (machine : Machine) : Runner := fun command => do
  if command.echo then Run.say command.line
  if command.argv.isEmpty then throw (.launch command.line .emptyCommand)
  Run.noteLaunch command
  let s ← get
  let (outcome, disk) := machine command.argv s.env.vars s.disk
  set { s with disk }
  match outcome with
  | .unstarted cause =>
    diagnose command
    throw (.launch command.line cause)
  | .exited status output =>
    unless command.capture do Run.emit output
    if status = 0 then return if command.capture then Utf8.decodeLossy output else []
    diagnose command
    throw (.commandFailed command.line status)

end Runner

end FirmwareBuild
