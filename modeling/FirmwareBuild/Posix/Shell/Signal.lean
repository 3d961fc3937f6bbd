import FirmwareBuild.Text

/-! # Signals

The signals that end a process or make a shell do something, by number and by
name. The number zero stands for the end of a shell. -/

namespace FirmwareBuild.Posix.Signal

/-- The names of the signals in the order of their numbers. -/
def names : List String :=
  ["EXIT", "HUP", "INT", "QUIT", "ILL", "TRAP", "ABRT", "BUS", "FPE", "KILL", "USR1", "SEGV",
    "USR2", "PIPE", "ALRM", "TERM", "STKFLT", "CHLD", "CONT", "STOP", "TSTP", "TTIN", "TTOU", "URG",
    "XCPU", "XFSZ", "VTALRM", "PROF", "WINCH", "IO", "PWR", "SYS"]

/-- The number of signals, with those that have no name of their own. -/
def count : Nat := 65

def name (signal : Nat) : Text := ((names[signal]?).map String.toList).getD (Text.ofNat signal)

def ofDigits? (text : Text) : Option Nat :=
  if !text.isEmpty && text.all Char.isDigit then
    let number := text.foldl (fun n c => n * 10 + (c.toNat - '0'.toNat)) 0
    if number < count then some number else none
  else none

/-- The signal that a text names by number or by name. A number may be any, a name has to be at
least the given one. -/
def ofText? (least : Nat) (text : Text) : Option Nat :=
  if !text.isEmpty && text.all Char.isDigit then ofDigits? text
  else
    let found := names.findIdx fun name => Text.sameLetters name.toList text
    if least ≤ found ∧ found < names.length then some found else none

def terminate : Nat := 15

def kill : Nat := 9

/-- The signal for a process that writes to a pipe that no one reads from any more. -/
def brokenPipe : Nat := 13

/-- Whether a signal ends a process that does not ask for anything else. -/
def isDeadly (signal : Nat) : Bool := !([0, 17, 18, 19, 20, 21, 22, 23, 28].contains signal)

def report? (signal : Nat) : Option Text :=
  ([(1, "Hangup"), (3, "Quit"), (4, "Illegal instruction"), (5, "Trace/breakpoint trap"),
    (6, "Aborted"), (7, "Bus error"), (8, "Floating point exception"), (9, "Killed"),
    (10, "User defined signal 1"), (11, "Segmentation fault"), (12, "User defined signal 2"),
    (14, "Alarm clock"), (15, "Terminated")].lookup signal).map String.toList

end FirmwareBuild.Posix.Signal
