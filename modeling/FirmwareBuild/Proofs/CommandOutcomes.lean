import FirmwareBuild.Proofs.RunFrame
import FirmwareBuild.Proofs.Utf8

/-! # What becomes of a command

The machine is asked once for a command, and what it says decides everything: the answer
or the error, and what is printed. The line of a command that fails is printed once, in
front of what the child prints or behind it, and output that is kept is never printed
(`onMachine_tells`). -/

namespace FirmwareBuild

namespace Command

/-- The line of a command as it is printed before the command starts. -/
def announcement (command : Command) : Bytes := Utf8.encode (command.line ++ ['\n'])

def notice (command : Command) : Bytes :=
  Utf8.encode ("Error in running process:\n  ".toList ++ command.line ++ ['\n'])

/-- What is printed of a child's output: nothing, if it is kept. -/
def passedOn (command : Command) (output : Bytes) : Bytes := if command.capture then [] else output

def success (command : Command) (output : Bytes) : Bytes :=
  (if command.echo then command.announcement else []) ++ command.passedOn output

/-- What is printed of a command that fails: its line comes first, or last with a notice. -/
def failure (command : Command) (output : Bytes) : Bytes :=
  if command.echo then command.announcement ++ command.passedOn output
  else command.passedOn output ++ command.notice

end Command

namespace Session

def ran (s : Session) (command : Command) (disk : Disk) : Session :=
  { s with disk, launches := s.launches ++ [⟨command, s.env⟩] }

def printing (s : Session) (octets : Bytes) : Session := { s with output := s.output ++ octets }

theorem printing_nil (s : Session) : s.printing [] = s := by
  rw [printing, List.append_nil]

theorem printing_printing (s : Session) (first second : Bytes) :
    (s.printing first).printing second = s.printing (first ++ second) := by
  simp only [printing, List.append_assoc]

end Session

namespace Runner

variable {machine : Machine} {command : Command} {s : Session}

/-! ## The parts of a command -/

theorem diagnose_eq (command : Command) (s : Session) : diagnose command s =
    .ok () (s.printing (if command.echo then [] else command.notice)) := by
  have hnotice : command.notice = Utf8.encode "Error in running process:".toList ++
      Utf8.encode ['\n'] ++ (Utf8.encode ("  ".toList ++ command.line) ++ Utf8.encode ['\n']) := by
    have hhead : "Error in running process:\n  ".toList =
        "Error in running process:".toList ++ ['\n'] ++ "  ".toList := by decide
    simp only [Command.notice, hhead, Utf8.encode_append, List.append_assoc]
  unfold diagnose
  split
  · rw [Session.printing_nil]
    rfl
  · rw [hnotice, Session.printing, ← List.append_assoc]
    rfl

/-- What a command with an exit status comes to. -/
def close (command : Command) (status : Nat) (output : Bytes) : Run Text :=
  if status = 0 then return if command.capture then Utf8.decodeLossy output else []
  else do
    diagnose command
    throw (.commandFailed command.line status)

/-- What is left to do of a command whose outcome is known. -/
def settle (command : Command) : Outcome → Run Text
  | .unstarted cause => do
    diagnose command
    throw (.launch command.line cause)
  | .exited status output =>
    if command.capture then close command status output
    else do
      Run.emit output
      close command status output

/-- The line of a command comes first, then the machine is asked. -/
theorem onMachine_settle (h : command.argv ≠ []) : onMachine machine command s =
    settle command (machine command.argv s.env.vars s.disk).1
      ((s.ran command (machine command.argv s.env.vars s.disk).2).printing
        (if command.echo then command.announcement else [])) := by
  have hprogram : ¬ command.argv.isEmpty = true := by simpa using h
  unfold onMachine
  simp only [if_neg hprogram]
  split
  · rw [Command.announcement, Utf8.encode_append]
    rfl
  · rw [Session.printing_nil]
    rfl

theorem settle_exited (command : Command) (status : Nat) (output : Bytes) (s : Session) :
    settle command (.exited status output) s =
      close command status output (s.printing (command.passedOn output)) := by
  rw [settle, Command.passedOn]
  split
  · rw [Session.printing_nil]
  · rfl

/-! ## The whole command -/

/-- How a command ends of which the machine says something. -/
def conclude (command : Command) (s : Session) : Outcome × Disk →
    EStateM.Result BuildError Session Text
  | (.unstarted cause, disk) =>
    .error (.launch command.line cause) ((s.ran command disk).printing (command.failure []))
  | (.exited status output, disk) =>
    if status = 0 then
      .ok (if command.capture then Utf8.decodeLossy output else [])
        ((s.ran command disk).printing (command.success output))
    else
      .error (.commandFailed command.line status)
        ((s.ran command disk).printing (command.failure output))

/-- **What the machine says decides how a command ends.** -/
theorem onMachine_eq (h : command.argv ≠ []) : onMachine machine command s =
    conclude command s (machine command.argv s.env.vars s.disk) := by
  rw [onMachine_settle h]
  generalize machine command.argv s.env.vars s.disk = said
  obtain ⟨outcome, disk⟩ := said
  have hfails (output : Bytes) : (if command.echo then command.announcement else []) ++
      (command.passedOn output ++ if command.echo then [] else command.notice) =
        command.failure output := by
    rw [Command.failure]
    split <;> simp
  cases outcome with
  | unstarted cause =>
    have hnothing : command.passedOn [] = [] := ite_self _
    rw [settle, Run.bind_of_ok (diagnose_eq command _), conclude, ← hfails, hnothing,
      Session.printing_printing]
    rfl
  | exited status output =>
    rw [settle_exited, Session.printing_printing, close, conclude]
    split
    · rfl
    · rw [Run.bind_of_ok (diagnose_eq command _), Session.printing_printing, ← hfails,
        List.append_assoc]
      rfl

/-! ## The ends told apart -/

theorem conclude_ok {said : Outcome × Disk} (text : Text) (left : Session) :
    conclude command s said = .ok text left ↔ ∃ output disk, said = (.exited 0 output, disk) ∧
      text = (if command.capture then Utf8.decodeLossy output else []) ∧
      left = (s.ran command disk).printing (command.success output) := by
  constructor
  · intro h
    obtain ⟨cause | ⟨status, output⟩, disk⟩ := said
    · cases h
    · by_cases hzero : status = 0
      · subst hzero
        rw [conclude, if_pos rfl] at h
        cases h
        exact ⟨output, disk, rfl, rfl, rfl⟩
      · rw [conclude, if_neg hzero] at h
        cases h
  · rintro ⟨output, disk, rfl, rfl, rfl⟩
    rw [conclude, if_pos rfl]

theorem conclude_commandFailed {said : Outcome × Disk} (line : Text) (status : Nat)
    (left : Session) : conclude command s said = .error (.commandFailed line status) left ↔
      line = command.line ∧ status ≠ 0 ∧ ∃ output disk, said = (.exited status output, disk) ∧
        left = (s.ran command disk).printing (command.failure output) := by
  constructor
  · intro h
    obtain ⟨cause | ⟨status', output⟩, disk⟩ := said
    · cases h
    · by_cases hzero : status' = 0
      · rw [conclude, if_pos hzero] at h
        cases h
      · rw [conclude, if_neg hzero] at h
        cases h
        exact ⟨rfl, hzero, output, disk, rfl, rfl⟩
  · rintro ⟨rfl, hstatus, output, disk, rfl, rfl⟩
    rw [conclude, if_neg hstatus]

theorem conclude_launch {said : Outcome × Disk} (line : Text) (cause : IoError)
    (left : Session) : conclude command s said = .error (.launch line cause) left ↔
      line = command.line ∧ ∃ disk, said = (.unstarted cause, disk) ∧
        left = (s.ran command disk).printing (command.failure []) := by
  constructor
  · intro h
    obtain ⟨cause | ⟨status, output⟩, disk⟩ := said
    · cases h
      exact ⟨rfl, disk, rfl, rfl⟩
    · rw [conclude] at h
      split at h <;> cases h
  · rintro ⟨rfl, disk, rfl, rfl⟩
    rfl

theorem conclude_error {said : Outcome × Disk} {e : BuildError} {left : Session}
    (h : conclude command s said = .error e left) :
    (∃ status, e = .commandFailed command.line status) ∨
      ∃ cause, e = .launch command.line cause := by
  obtain ⟨cause | ⟨status, output⟩, disk⟩ := said
  · cases h
    exact .inr ⟨cause, rfl⟩
  · rw [conclude] at h
    split at h
    · cases h
    · cases h
      exact .inl ⟨status, rfl⟩

/-- What the machine says of a command comes out as it is. -/
structure Tells (machine : Machine) (command : Command) (s : Session) : Prop where
  /-- The machine is asked for the arguments and the variables of the overlay, and nothing else of
  it counts. -/
  asks : ∀ other : Machine,
    other command.argv s.env.vars s.disk = machine command.argv s.env.vars s.disk →
      onMachine other command s = onMachine machine command s
  /-- Success is the status zero. The answer is the output if that is kept, and empty otherwise. -/
  succeeds : ∀ text left, onMachine machine command s = .ok text left ↔ ∃ output disk,
    machine command.argv s.env.vars s.disk = (.exited 0 output, disk) ∧
      text = (if command.capture then Utf8.decodeLossy output else []) ∧
      left = (s.ran command disk).printing (command.success output)
  /-- Any other status is an error of its own, with the line of the command. -/
  exits : ∀ line status left,
    onMachine machine command s = .error (.commandFailed line status) left ↔
      line = command.line ∧ status ≠ 0 ∧ ∃ output disk,
        machine command.argv s.env.vars s.disk = (.exited status output, disk) ∧
        left = (s.ran command disk).printing (command.failure output)
  /-- So is the cause for which a command could not be started. -/
  unstarted : ∀ line cause left,
    onMachine machine command s = .error (.launch line cause) left ↔
      line = command.line ∧ ∃ disk,
        machine command.argv s.env.vars s.disk = (.unstarted cause, disk) ∧
        left = (s.ran command disk).printing (command.failure [])
  /-- There are no other errors. -/
  errors : ∀ e left, onMachine machine command s = .error e left →
    (∃ status, e = .commandFailed command.line status) ∨ ∃ cause, e = .launch command.line cause

/-- **A command comes to what the machine says of it.** The child gets the arguments and the
variables of the overlay. A status of zero, another status and a child that could not be started
are told apart, with the line of the command and the status or cause, and what is printed is known
to the octet: the line of a command that fails is there once, before the child's output if the
line is to be printed and behind it in a notice if not, that of one that succeeds only if it is to
be printed, and output that is kept not at all. -/
theorem onMachine_tells (machine : Machine) {command : Command} (h : command.argv ≠ [])
    (s : Session) : Tells machine command s := by
  have heq (machine : Machine) : onMachine machine command s =
      conclude command s (machine command.argv s.env.vars s.disk) := onMachine_eq h
  refine ⟨fun other ho => by rw [heq, heq, ho], ?_, ?_, ?_, ?_⟩
  all_goals
    rw [heq]
    generalize machine command.argv s.env.vars s.disk = said
  · exact conclude_ok
  · exact conclude_commandFailed
  · exact conclude_launch
  · intro e left
    exact conclude_error

/-- A machine on which a program prints its arguments and exits with the number of variables that it
got. -/
def reciting : Machine := fun argv vars disk =>
  (.exited vars.length (argv.flatMap Utf8.encode), disk)

def marked : Session :=
  { env := Overlay.empty.setText "MARKER".toList "42".toList, disk := .empty }

theorem onMachine_tells_reciting :
    (Command.captured ["cc".toList, "-v".toList]).argv ≠ [] ∧
    Tells reciting (.captured ["cc".toList, "-v".toList]) marked ∧
    onMachine reciting (.captured ["cc".toList, "-v".toList]) marked =
      .error (.commandFailed "cc -v".toList 1)
        { marked with
          output := Utf8.encode "Error in running process:\n  cc -v\n".toList
          launches := [⟨.captured ["cc".toList, "-v".toList], marked.env⟩] } := by
  have hprogram : (Command.captured ["cc".toList, "-v".toList]).argv ≠ [] := by decide
  have htells := onMachine_tells reciting hprogram marked
  exact ⟨hprogram, htells, (htells.exits _ _ _).mpr ⟨rfl, by decide, _, _, rfl, rfl⟩⟩

end Runner

end FirmwareBuild
