import FirmwareBuild.FrontEnd.Assignment
import FirmwareBuild.Text.Utf8

/-! # The command line

What the arguments of the front end ask for. A build is asked for by flags alone;
the subcommands `toolchain`, `env` and `stage` ask for something else. The options
`--workspace` and `--verbose` are understood before and after a subcommand.

A build flag can look like anything. So a word with a hyphen that is no known
option is a flag, and from the first flag on every word is one, just as from `--`
on. A subcommand is different: there a word with a hyphen has to be an option. -/

namespace FirmwareBuild

/-- What is asked for besides a build. -/
inductive Subcommand where
  | toolchain
  | env (shell : ShellKind)
  | stage (manifest source destination : Bytes)
  deriving DecidableEq, Repr

structure Invocation where
  subcommand : Option Subcommand := none
  workspace : Option Bytes := none
  verbose : Bool := false
  flags : List Text := []
  deriving DecidableEq, Repr

/-- Why arguments ask for nothing that can be done. -/
inductive Misuse where
  | help
  /-- A word that stands for nothing at its place. -/
  | unexpected (word : Bytes)
  | missingValue
  | emptyValue
  | needlessValue
  | repeated
  /-- A flag that is no text. -/
  | notText (word : Bytes)
  | unknownShell (word : Bytes)
  | missingOption
  deriving DecidableEq, Repr

namespace CommandLine

/-- The options of all levels. -/
inductive Switch where
  | workspace
  | verbose
  | help
  | manifest
  | source
  | destination
  deriving DecidableEq, Repr

def Switch.takesValue : Switch → Bool
  | .verbose | .help => false
  | _ => true

/-- What may stand at a level of the command line. -/
structure Level where
  switches : List (Text × Switch)
  /-- The words that end this level and start the next. -/
  subcommands : List Text := []
  /-- How many words may stand on their own. -/
  operands : Option Nat
  /-- Whether a word with a hyphen that is no option stands on its own. -/
  hyphens : Bool := false
  /-- What a word that stands on its own has to be. -/
  check : Bytes → Except Misuse Unit := fun _ => .ok ()

def commonSwitches : List (Text × Switch) :=
  [("workspace".toList, .workspace), ("verbose".toList, .verbose), ("help".toList, .help)]

/-- The options of one letter, which are understood everywhere. -/
def shortSwitch? (octet : UInt8) : Option Switch :=
  if octet = 0x43 then some .workspace
  else if octet = 0x76 then some .verbose
  else if octet = 0x68 then some .help
  else none

/-- Where a level stands between two words. -/
inductive Mode where
  | free
  | awaiting
  /-- Only words that stand on their own may come. -/
  | operands
  deriving DecidableEq, Repr

structure Found where
  given : List (Switch × Bytes) := []
  operands : List Bytes := []
  /-- An option whose value is a word of its own, as far as that word has come. It is looked at
  when the next thing is found. -/
  pending : Option (Switch × Option Bytes) := none
  deriving DecidableEq, Repr

namespace Found

def value? (found : Found) (switch : Switch) : Option Bytes := found.given.lookup switch

def has (found : Found) (switch : Switch) : Bool := (found.value? switch).isSome

def record (found : Found) (switch : Switch) (value : Bytes) : Except Misuse Found :=
  if switch = .help then .error .help
  else if found.has switch then .error .repeated
  else if switch.takesValue && value.isEmpty then .error .emptyValue
  else .ok { found with given := found.given ++ [(switch, value)] }

/-- With the option whose value has come, if there is one. -/
def settle (found : Found) : Except Misuse Found :=
  match found.pending with
  | none => .ok found
  | some (_, none) => .error .missingValue
  | some (switch, some value) => { found with pending := none }.record switch value

/-- With one more option, after what was found before it. -/
def give (found : Found) (switch : Switch) (value : Bytes) : Except Misuse Found := do
  (← found.settle).record switch value

def await (found : Found) (switch : Switch) : Except Misuse (Found × Mode) := do
  return ({ ← found.settle with pending := some (switch, none) }, .awaiting)

/-- With one more word that stands on its own. -/
def addOperand (level : Level) (found : Found) (word : Bytes) : Except Misuse Found := do
  let found ← found.settle
  if level.operands.any (· ≤ found.operands.length) then throw (.unexpected word)
  level.check word
  return { found with operands := found.operands ++ [word] }

end Found

def hyphen : UInt8 := 0x2D

def equals : UInt8 := 0x3D

/-- The options of one letter in a word. An option with a value takes the rest of the word, or
the next word if nothing is left. -/
def cluster (word : Bytes) : Found → Bytes → Except Misuse (Found × Mode)
  | found, [] => .ok (found, .free)
  | found, octet :: rest =>
    match shortSwitch? octet with
    | none => .error (.unexpected word)
    | some switch =>
      if switch.takesValue then
        if rest.isEmpty then found.await switch
        else (found.give switch ((Text.dropStart? [equals] rest).getD rest)).map (·, .free)
      else do cluster word (← found.give switch []) rest

/-- What a word stands for when it can be an option: `none` when it is none at this level. -/
def option? (level : Level) (found : Found) (word : Bytes) :
    Except Misuse (Option (Found × Mode)) :=
  match Text.dropStart? [hyphen, hyphen] word, Text.dropStart? [hyphen] word with
  | some body, _ =>
    let (name, value?) := match Text.splitFirst? equals body with
      | some (name, value) => (name, some value)
      | none => (body, none)
    match Utf8.decode? name with
    | none => .error (.unexpected word)
    | some name =>
      match level.switches.lookup name, value? with
      | none, _ => if level.hyphens then .ok none else .error (.unexpected word)
      | some switch, none =>
        if switch.takesValue then (found.await switch).map some
        else (found.give switch []).map fun found => some (found, .free)
      | some switch, some value =>
        if switch.takesValue then (found.give switch value).map fun found => some (found, .free)
        else .error .needlessValue
  | none, some letters =>
    if letters.isEmpty then .ok none
    else if level.hyphens && letters.any fun octet => (shortSwitch? octet).isNone then .ok none
    else (cluster word found letters).map some
  | none, none => .ok none

/-- Reads a level. The result is what was found, and the subcommand that follows with the words
after it. -/
def scan (level : Level) : Mode → Found → List Bytes →
    Except Misuse (Found × Option (Text × List Bytes))
  | _, found, [] => .ok (found, none)
  | .operands, found, word :: words => do
    scan level .operands (← found.addOperand level word) words
  | .free, found, word :: words =>
    match level.subcommands.find? (fun name => Utf8.encode name = word) with
    | some name => .ok (found, some (name, words))
    | none =>
      if word = [hyphen, hyphen] then scan level .operands found words
      else do
        match ← option? level found word with
        | some (found, mode) => scan level mode found words
        | none =>
          scan level (if level.hyphens then .operands else .free) (← found.addOperand level word)
            words
  | .awaiting, found, word :: words =>
    if word = [hyphen, hyphen] then .error .missingValue
    else do
      match ← option? level found word with
      | some (found, mode) => scan level mode found words
      | none =>
        let pending := found.pending.map fun (switch, _) => (switch, some word)
        scan level .free { found with pending } words

def helpName : Text := "help".toList

def rootLevel : Level where
  switches := commonSwitches
  subcommands := ["toolchain".toList, "env".toList, "stage".toList, helpName]
  operands := none
  hyphens := true

def shellOf (word : Bytes) : Except Misuse ShellKind :=
  if word = Utf8.encode "bash".toList then .ok .bash
  else if word = Utf8.encode "sh".toList then .ok .sh
  else if word = Utf8.encode "cmd".toList then .ok .cmd
  else .error (.unknownShell word)

def subLevel (name : Text) : Level :=
  if name = "env".toList then
    { switches := commonSwitches, operands := some 1
      check := fun word => (shellOf word).map fun _ => () }
  else if name = "stage".toList then
    { switches := commonSwitches ++
        [("manifest".toList, .manifest), ("source".toList, .source), ("dest".toList, .destination)]
      operands := some 0 }
  else { switches := commonSwitches, operands := some 0 }

/-- The subcommand with what was found at its level. Without a word the shell is `bash`. -/
def subcommandOf (name : Text) (found : Found) : Except Misuse Subcommand :=
  if name = "env".toList then
    match found.operands with
    | [] => .ok (.env .bash)
    | word :: _ => (shellOf word).map .env
  else if name = "stage".toList then
    match found.value? .manifest, found.value? .source, found.value? .destination with
    | some manifest, some source, some destination => .ok (.stage manifest source destination)
    | _, _, _ => .error .missingOption
  else .ok .toolchain

/-- Whether the usage is asked for with a level that is there. The subcommands have no levels below
them. -/
def usageOf : List Bytes → Misuse
  | [] => .help
  | [word] =>
    if rootLevel.subcommands.any fun name => Utf8.encode name = word then .help
    else .unexpected word
  | _ :: word :: _ => .unexpected word

def flagOf (word : Bytes) : Except Misuse Text :=
  match Utf8.decode? word with
  | some text => .ok text
  | none => .error (.notText word)

/-- What the arguments ask for. An option after the subcommand counts more than one before it, and
what comes after the subcommand is looked at first. -/
def read (arguments : List Bytes) : Except Misuse Invocation := do
  match ← scan rootLevel .free {} arguments with
  | (found, none) =>
    let found ← found.settle
    return { workspace := found.value? .workspace
             verbose := found.has .verbose
             flags := ← found.operands.mapM flagOf }
  | (outer, some (name, words)) =>
    if name = helpName then throw (usageOf words)
    let (found, _) ← scan (subLevel name) .free {} words
    let found ← found.settle
    let subcommand ← subcommandOf name found
    let outer ← outer.settle
    return { subcommand := some subcommand
             workspace := (found.value? .workspace).or (outer.value? .workspace)
             verbose := outer.has .verbose || found.has .verbose }

end CommandLine

end FirmwareBuild
