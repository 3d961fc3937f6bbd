import FirmwareBuild.Posix.Shell.Act

/-! # Arguments of the commands of a shell

How the commands that a shell has itself read their arguments: options in front,
whole numbers, and the settings of the shell. -/

namespace FirmwareBuild.Posix.Act

/-- A command of the shell. It gets its arguments and ends with a status. -/
abbrev Builtin := List Text → Act Nat

/-- The letters of the options in front of the arguments, with their values, and the arguments
behind them, in at most so many steps. The letters that are left of the present argument are
given. -/
def readOptions (plain valued : String) : Nat → (letters : Text) → List Text →
    Except Complaint (List (Char × Text) × List Text)
  | 0, _, args => .ok ([], args)
  | _ + 1, [], ['-', '-'] :: rest => .ok ([], rest)
  | steps + 1, [], ('-' :: c :: letters) :: rest =>
    readOptions plain valued steps (c :: letters) rest
  | _ + 1, [], args => .ok ([], args)
  | steps + 1, c :: letters, args => do
    if plain.toList.contains c then
      let (more, rest) ← readOptions plain valued steps letters args
      return ((c, []) :: more, rest)
    if !valued.toList.contains c then throw (.noOption c)
    match letters, args with
    | [], [] => throw (.noValue c)
    | [], value :: args =>
      let (more, rest) ← readOptions plain valued steps [] args
      return ((c, value) :: more, rest)
    | value, args =>
      let (more, rest) ← readOptions plain valued steps [] args
      return ((c, value) :: more, rest)

def stepsFor (args : List Text) : Nat := Text.total (args.map fun arg => arg.length + 1) + 1

def valuedOptions (plain valued : String) (args : List Text) :
    Act (List (Char × Text) × List Text) := do
  match readOptions plain valued (stepsFor args) [] args with
  | .ok read => return read
  | .error complaint => giveUp complaint

def options (plain : String) (args : List Text) : Act (Text × List Text) := do
  let (letters, rest) ← valuedOptions plain "" args
  return (letters.map Prod.fst, rest)

def numberOf (arg : Text) : Act Nat := do
  match Numeral.count? arg with
  | some n => return n
  | none => giveUp (.noNumber arg)

def firstNumber (args : List Text) (default : Nat) : Act Nat :=
  match args with
  | [] => return default
  | arg :: _ => numberOf arg

def switch (setting : Setting) (value : Bool) : Act Unit :=
  modify fun s => { s with settings := setting.switch value s.settings }

/-- Switches settings as arguments tell, in at most so many steps, and gives the arguments behind
them, if these are to be the shell's. When the shell starts, one of the letters says that a script
is among the arguments. -/
def readSettings (starts : Bool) : Nat → (value : Bool) → (letters : Text) → List Text →
    (hasScript : Bool) → Act (Bool × Option (List Text))
  | 0, _, _, _, hasScript => return (hasScript, none)
  | steps + 1, _, [], args, hasScript => do
    match args with
    | [] => return (hasScript, none)
    | ['-'] :: rest =>
      unless starts do
        switch .trace false
        switch .verbose false
      return (hasScript, if rest.isEmpty then none else some rest)
    | ['-', '-'] :: rest => return (hasScript, some rest)
    | ('-' :: letters) :: rest => readSettings starts steps true letters rest hasScript
    | ('+' :: letters) :: rest => readSettings starts steps false letters rest hasScript
    | rest => return (hasScript, some rest)
  | steps + 1, value, c :: letters, args, hasScript => do
    if starts && c == 'c' then readSettings starts steps value letters args true
    else if starts && c == 'l' then readSettings starts steps value letters args hasScript
    else if c = 'o' then
      match args with
      | [] => print (Setting.listing (!value) (← get).settings)
      | name :: _ =>
        match Setting.ofName? name with
        | some setting => switch setting value
        | none => giveUp (.noSetting value name)
      readSettings starts steps value letters args.tail hasScript
    else
      match Setting.ofLetter? c with
      | some setting => switch setting value
      | none => giveUp (.noOption c)
      readSettings starts steps value letters args hasScript

end FirmwareBuild.Posix.Act
