import FirmwareBuild.BuildError
import FirmwareBuild.Disk
import FirmwareBuild.Overlay

/-! # Sessions

A session is all that a run reads and changes: the environment overlay, the disk,
what was printed, and the commands that were launched, each with the environment
it was given. A step of a run is a function from one session to the next with an
answer or an error; what a step did before it failed stays done. -/

namespace FirmwareBuild

/-- A command to be run: the program with its arguments, whether its line is printed first, and
whether its output is kept instead of printed. -/
structure Command where
  argv : List Text
  echo : Bool := false
  capture : Bool := false
  deriving DecidableEq, Repr

namespace Command

def line (command : Command) : Text := Text.join [' '] command.argv

def captured (argv : List Text) : Command := { argv, capture := true }

def echoed (argv : List Text) : Command := { argv, echo := true }

end Command

structure Launch where
  command : Command
  env : Overlay
  deriving DecidableEq

structure Session where
  env : Overlay := .empty
  disk : Disk
  output : Bytes := []
  launches : List Launch := []
  deriving Inhabited

abbrev Run := EStateM BuildError Session

namespace Run

def emit (octets : Bytes) : Run Unit :=
  modify fun s => { s with output := s.output ++ octets }

def say (line : Text) : Run Unit := emit (Utf8.encode line ++ Utf8.encode ['\n'])

def edit (change : Overlay → Overlay) : Run Unit :=
  modify fun s => { s with env := change s.env }

def noteLaunch (command : Command) : Run Unit :=
  modify fun s => { s with launches := s.launches ++ [⟨command, s.env⟩] }

def onDisk (action : FileAction) (path : Bytes) (change : Disk.Change α) : Run α := fun s =>
  match change s.disk with
  | .ok a disk => .ok a { s with disk }
  | .error cause disk => .error (.io action path cause) { s with disk }

def mapError (f : BuildError → BuildError) (step : Run α) : Run α := fun s =>
  match step s with
  | .ok a s => .ok a s
  | .error e s => .error (f e) s

end Run

end FirmwareBuild
