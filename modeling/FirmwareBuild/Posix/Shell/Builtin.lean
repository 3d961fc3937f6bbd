import FirmwareBuild.Posix.Shell.CommandName
import FirmwareBuild.Posix.Shell.Trap
import FirmwareBuild.Posix.Shell.WorkingDirectory

/-! # Commands of the shell itself

The commands that a shell has itself and that run no script: those that print and
compare texts, those that show or change what the process is allowed to do, and the
table of all of them. -/

namespace FirmwareBuild.Posix.Act

def echoCommand : Builtin := fun args => do
  let (newline, args) := match args with
    | ['-', 'n'] :: rest => (false, rest)
    | args => (true, args)
  print (echoText .shell true newline args)
  return 0

def printfCommand : Builtin := fun args => do
  let (_, args) ← options "" args
  let (text, warnings, mistake) := printfText .shell args
  for warning in warnings do complain (.formatWarning warning)
  match mistake with
  | some mistake =>
    complain (.format mistake)
    print text
    finish 2
    throw .mistake
  | none =>
    print text
    return if warnings.isEmpty then 0 else 1

def testCommand : Builtin := fun args => do
  match ShellTest.holds (← get).disk false args with
  | .ok holds => return if holds then 0 else 1
  | .error mistake => giveUp (.condition mistake)

/-- Checks a condition in brackets. The last argument only has to begin with one. -/
def bracketCommand : Builtin := fun args => do
  if args.getLast?.bind List.head? ≠ some ']' then giveUp .openBracket
  testCommand args.dropLast

def constantCommand (status : Nat) : Builtin := fun _ => return status

/-- The three digits of a number in base eight, which may say what three kinds of users may do. -/
def rightsOf (mask : Nat) : List Nat := [mask / 64 % 8, mask / 8 % 8, mask % 8]

def rightLetters (digit : Nat) : Text :=
  [('r', 4), ('w', 2), ('x', 1)].filterMap fun (letter, bit) =>
    if digit / bit % 2 = 1 then some letter else none

/-- The rights that an expression such as `g+w` leaves where there were others. -/
def changeRights? (allowed : List Nat) (clause : Text) : Option (List Nat) :=
  let users := clause.takeWhile fun c => ['u', 'g', 'o', 'a'].contains c
  let concerns (user : Char) : Bool := users.isEmpty || users.contains 'a' || users.contains user
  match clause.drop users.length with
  | op :: letters =>
    let bits := Text.total <| (([('r', 4), ('w', 2), ('x', 1)] : List (Char × Nat)).filter
      fun (letter, _) => letters.contains letter).map Prod.snd
    let change? (old : Nat) : Option Nat :=
      match op with
      | '=' => some bits
      | '+' => some (old ||| bits)
      | '-' => some (old - (old &&& bits))
      | _ => none
    if !letters.all fun c => ['r', 'w', 'x'].contains c then none
    else (allowed.zip ['u', 'g', 'o']).mapM fun (old, user) =>
      if concerns user then change? old else some old
  | [] => none

def umaskCommand : Builtin := fun args => do
  let (letters, rest) ← options "S" args
  let mask := (← get).fileMask
  let allowed := (rightsOf mask).map fun digit => 7 - digit
  match rest with
  | [] =>
    let shown := if letters.isEmpty then '0' :: (rightsOf mask).flatMap Text.ofNat
      else Text.join [','] ((allowed.zip ['u', 'g', 'o']).map fun (digit, user) =>
        user :: '=' :: rightLetters digit)
    print (shown ++ ['\n'])
  | arg :: _ =>
    let new ← do
      if (arg.head?.map Char.isDigit).getD false then
        match Numeral.ofDigits? 8 arg with
        | some n => pure (n % 512)
        | none => giveUp (.noNumber arg)
      else
        match (Text.split ',' arg).foldlM changeRights? allowed with
        | some allowed => pure (allowed.foldl (fun n digit => n * 8 + (7 - digit)) 0)
        | none => giveUp (.noMode arg)
    modify fun s => { s with fileMask := new }
  return 0

/-- Shows a limit of the process. There is none. -/
def ulimitCommand : Builtin := fun args => do
  let (_, rest) ← options "HSatfdscmlpnvwr" args
  if rest.isEmpty then print "unlimited\n".toList
  return 0

def timesCommand : Builtin := fun _ => do
  let line := "0m0.000000s 0m0.000000s\n".toList
  print (line ++ line)
  return 0

/-- The commands that the shell has itself and that run no script. -/
def builtins : List (Text × Builtin) :=
  [(":", constantCommand 0), ("true", constantCommand 0), ("false", constantCommand 1),
    ("echo", echoCommand), ("printf", printfCommand), ("test", testCommand), ("[", bracketCommand),
    ("alias", aliasCommand), ("unalias", unaliasCommand), ("cd", cdCommand), ("chdir", cdCommand),
    ("pwd", pwdCommand), ("export", exportCommand), ("readonly", readonlyCommand),
    ("unset", unsetCommand), ("local", localCommand), ("set", setCommand),
    ("shift", shiftCommand), ("read", readCommand), ("getopts", getoptsCommand),
    ("trap", trapCommand), ("kill", killCommand), ("jobs", jobsCommand), ("fg", resumeCommand),
    ("bg", resumeCommand), ("type", typeCommand), ("hash", hashCommand), ("umask", umaskCommand),
    ("ulimit", ulimitCommand), ("times", timesCommand)].map
    fun (name, builtin) => (name.toList, builtin)

end FirmwareBuild.Posix.Act
