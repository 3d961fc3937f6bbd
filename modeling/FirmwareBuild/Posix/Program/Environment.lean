import FirmwareBuild.Posix.Program.Printing

/-! # Changing the environment of a command

The program that starts another one in a changed environment. Its arguments are
options, then assignments, then the command. One option holds more arguments in a
single text, which is cut at blanks that are not quoted, so that they can stand in
the first line of a script. -/

namespace FirmwareBuild.Posix.Program

open Tool

/-- How a text of arguments is being cut: the pieces before the present one, the last one first, the
present piece, the last character first, and the quote that is open. A blank has just ended a piece
where there is no present one. -/
structure ArgumentCut where
  done : List Text := []
  current : Option Text := none
  quote : Option Char := none

namespace ArgumentCut

def push (cut : ArgumentCut) (text : Text) : ArgumentCut :=
  { cut with current := some (text.reverse ++ cut.current.getD []) }

def close (cut : ArgumentCut) : ArgumentCut :=
  { cut with done := (cut.current.map List.reverse).toList ++ cut.done, current := none }

def turn (cut : ArgumentCut) (quote : Char) : ArgumentCut :=
  { cut.push [] with quote := if cut.quote.isNone then some quote else none }

def pieces (cut : ArgumentCut) : List Text := cut.close.done.reverse

end ArgumentCut

def argumentBlanks : List Char := [' ', '\t', '\n', '\x0b', '\x0c', '\r']

def argumentEscape? (letter : Char) : Option Char :=
  [('"', '"'), ('#', '#'), ('$', '$'), ('\'', '\''), ('\\', '\\'), ('f', '\x0c'), ('n', '\n'),
    ('r', '\r'), ('t', '\t'), ('v', '\x0b')].lookup letter

/-- The arguments in a text, or what is wrong with it, in at most so many steps. A variable in
braces stands for its value. -/
def cutArguments (env : List (Text × Text)) : Nat → ArgumentCut → Text → Except Text (List Text)
  | 0, cut, _ => .ok cut.pieces
  | _, cut, [] =>
    if cut.quote.isSome then .error "no terminating quote in -S string".toList else .ok cut.pieces
  | steps + 1, cut, c :: rest =>
    let next := cutArguments env steps
    let isQuote := (c == '\'' || c == '"') && cut.quote.all (· == c)
    if isQuote then next (cut.turn c) rest
    else if cut.quote.isNone && argumentBlanks.contains c then next cut.close rest
    else if c == '#' && cut.current.isNone && cut.quote.isNone then .ok cut.pieces
    else if c == '$' && cut.quote != some '\'' then
      match variableIn? rest with
      | some (name, rest) =>
        match env.lookup name with
        | some value => next (cut.push value) rest
        | none => next cut rest
      | none =>
        .error ("only $\x7bVARNAME\x7d expansion is supported, error at: ".toList ++ c :: rest)
    else if c == '\\' then
      match rest with
      | [] => .error "invalid backslash at end of string in -S".toList
      | letter :: rest =>
        if cut.quote = some '\'' then
          if letter == '\\' || letter == '\'' then next (cut.push [letter]) rest
          else next (cut.push [c]) (letter :: rest)
        else match letter, cut.quote, argumentEscape? letter with
          | '_', none, _ => next cut.close rest
          | '_', some _, _ => next (cut.push [' ']) rest
          | 'c', none, _ => .ok cut.pieces
          | 'c', some _, _ => .error "'\\c' must not appear in double-quoted -S string".toList
          | _, _, some meant => next (cut.push [meant]) rest
          | letter, _, none =>
            .error ("invalid sequence '\\".toList ++ letter :: "' in -S".toList)
    else next (cut.push [c]) rest
where
  variableIn? : Text → Option (Text × Text)
    | '\x7b' :: rest =>
      let isFirst (c : Char) : Bool := c.isAlpha || c == '_'
      let name := rest.takeWhile fun c => c.isAlphanum || c == '_'
      match rest.drop name.length with
      | '\x7d' :: rest => if name.head?.any isFirst then some (name, rest) else none
      | _ => none
    | _ => none

def environmentOptions : OptionTable :=
  OptionTable.of "iu:C:S:v0" [("ignore-environment", "i"), ("null", "0"), ("unset=", "u"),
    ("chdir=", "C"), ("default-signal?", "default"), ("ignore-signal?", "ignore"),
    ("block-signal?", "block"), ("list-signal-handling", "list"), ("debug", "v"),
    ("split-string=", "S")]

/-- Says where options for the first line of a script belong. -/
def hintAtSplitting : Tool Unit := complain "use -[v]S to pass options in shebang lines".toList

def misuseOption (mistake : OptionMistake) : Tool Unit := do
  complain mistake.description
  if let .unknownLetter letter := mistake then
    if argumentBlanks.contains letter then hintAtSplitting
  refer 125

def splitArgument (isLoud : Bool) (value : Text) : Tool (List Text) := do
  let env := (← get).env
  match cutArguments env (value.length + 1) {} value with
  | .error mistake => giveUp 125 mistake
  | .ok pieces =>
    if isLoud then
      mutter ("split -S:  ".toList ++ Quoted.escaped value ++ ['\n'])
      for (piece, i) in pieces.zipIdx do
        mutter ((if i = 0 then " into:    " else "     &    ").toList ++ Quoted.escaped piece ++
          ['\n'])
    return pieces

/-- The options in front of arguments, behind those that there are already, and the arguments behind
them, in at most so many steps. -/
def environmentRequest : Nat → List Text → Given → Tool Given
  | 0, args, given => return { given with words := args }
  | _, [], given => return given
  | steps + 1, arg :: rest, given => do
    if arg = ['-', '-'] then return { given with words := rest }
    match environmentOptions.readOption? rest.head? arg with
    | none => return { given with words := arg :: rest }
    | some (options, outcome) =>
      let given := { given with options := given.options ++ options }
      if given.has "help" || given.has "version" then quit 0
      match outcome with
      | .error mistake =>
        misuseOption mistake
        return given
      | .ok usesNext =>
        let rest := rest.drop (if usesNext then 1 else 0)
        let pieces ← match options.getLast? with
          | some (['S'], value) => splitArgument (given.has "v") value
          | _ => pure []
        environmentRequest steps (pieces ++ rest) given

/-- The number of options that the variables in a text of arguments may bring. -/
def splitPatience : Nat := 1000

/-- Sets variables as the assignments in front of a command tell, and gives the command. -/
def setVariables (say : Text → Tool Unit) : List Text → Tool (List Text)
  | [] => return []
  | word :: rest => do
    match Text.splitFirst? '=' word with
    | some (name, value) =>
      say ("setenv:   ".toList ++ word)
      modify fun w => { w with env := Text.putNamed name value w.env }
      setVariables say rest
    | none => return word :: rest

/-- Changes the environment as the arguments tell, and gives the command that is to be started in
it. Without a command, the environment is printed. -/
def changeEnvironment : Tool (List Text) := do
  let args := (← get).args
  let steps := Text.total (args.map fun arg => arg.length + 1) + splitPatience
  let given ← environmentRequest steps args {}
  let tell (text : Text) : Tool Unit := do
    if given.has "v" then mutter (text ++ ['\n'])
  let isDash := given.words.head? = some ['-']
  let words := if isDash then given.words.tail else given.words
  if isDash || given.has "i" then
    tell "cleaning environ".toList
    modify fun w => { w with env := [] }
  else
    for (key, name) in given.options do
      if key = ['u'] then
        tell ("unset:    ".toList ++ name)
        if name.isEmpty || name.contains '=' then
          giveUp 125 ("cannot unset ".toList ++ Quoted.escaped name ++ ": Invalid argument".toList)
        modify fun w => { w with env := w.env.filter fun entry => entry.1 ≠ name }
  let command ← setVariables tell words
  if command.isEmpty then
    if given.has "C" then misuse 125 "must specify command with --chdir (-C)".toList
    sayVariables (if given.has "0" then '\x00' else '\n') (← get).env
    quit 0
  if given.has "0" then misuse 125 "cannot specify --null (-0) with command".toList
  if let some directory := given.value? "C" then
    tell ("chdir:    ".toList ++ Quoted.always directory)
    if let .error cause := ← attempt (Disk.enter (toOctets directory)) then
      giveUp 125 (about "cannot change directory to" directory cause)
  tell ("executing: ".toList ++ command.headD [])
  for (arg, i) in command.zipIdx do
    tell ("   arg[".toList ++ Text.ofNat i ++ "]= ".toList ++ Quoted.escaped arg)
  return command

def refuseCommand (command : Text) (cause : IoError) : Program := do
  complain (Quoted.escaped command ++ ": ".toList ++ causeText cause)
  if cause = .notFound && command.any argumentBlanks.contains then hintAtSplitting
  quit (if cause = .notFound then 127 else 126)

end FirmwareBuild.Posix.Program
