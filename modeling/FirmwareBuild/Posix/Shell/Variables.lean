import FirmwareBuild.Posix.Shell.Field
import FirmwareBuild.Posix.Shell.Options

/-! # Commands on variables

The commands of a shell that set, list and unset its variables, arguments, settings
and aliases, and those that read values for them from the input or from options. -/

namespace FirmwareBuild.Posix.Act

/-- A text in single quotes, and the single quotes in it in double ones, in at most so many
steps. -/
def quoteSteps : Nat → Text → Text
  | 0, _ => []
  | steps + 1, text =>
    let plain := text.takeWhile (· ≠ '\'')
    let rest := text.dropWhile (· ≠ '\'')
    let quotes := rest.takeWhile (· = '\'')
    let rest := rest.dropWhile (· = '\'')
    '\'' :: plain ++ '\'' ::
      if quotes.isEmpty then []
      else '"' :: quotes ++ '"' :: if rest.isEmpty then [] else quoteSteps steps rest

def shellQuoted (text : Text) : Text := quoteSteps (text.length + 1) text

def definition (name value : Text) : Text := name ++ '=' :: shellQuoted value

def listVariables (before : Text) (vars : List (Text × Variable)) : Text :=
  (vars.mergeSort fun a b => !decide (b.1 < a.1)).flatMap fun (name, v) =>
    before ++ (v.value.elim name (definition name)) ++ ['\n']

/-- Marks variables, which are set if an argument is an assignment, or lists those that have the
mark. -/
def markVariables (name : String) (isMarked : Variable → Bool) (mark : Variable → Variable) :
    Builtin := fun args => do
  let (letters, rest) ← options "p" args
  if !letters.isEmpty || rest.isEmpty then
    print (listVariables (name.toList ++ [' ']) ((← get).vars.filter fun v => isMarked v.2))
    return 0
  for arg in rest do
    let (name, value) := nameAndValue arg
    let putMark (s : Shell) : Shell := s.putVariable name (mark ((s.variableAt? name).getD {}))
    match value with
    | some value => assign name value
    | none => if ((← get).variableAt? name).isNone then checkName name
    modify putMark
  return 0

def exportCommand : Builtin :=
  markVariables "export" Variable.isExported fun v => { v with isExported := true }

def readonlyCommand : Builtin :=
  markVariables "readonly" Variable.isReadOnly fun v => { v with isReadOnly := true }

def unsetCommand : Builtin := fun args => do
  let (letters, rest) ← options "vf" args
  for name in rest do
    if letters.getLast? = some 'f' then
      modify fun s => { s with functions := s.functions.filter fun f => f.1 ≠ name }
    else unassign name
  return 0

def localCommand : Builtin := fun args => do
  if (← get).locals.isNone then giveUp .outsideFunction
  for arg in args do
    if arg = ['-'] then
      modify fun s => { s with locals := s.locals.map (.settings s.settings :: ·) }
    else
      let (name, value) := nameAndValue arg
      let saved ← assignForNow name value false
      modify fun s => { s with locals := s.locals.map (saved :: ·) }
  return 0

def setArguments (args : List Text) : Act Unit :=
  modify fun s => { s with args, cursor := {} }

/-- Sets the arguments or the settings of the shell, or lists its variables. -/
def setCommand : Builtin := fun args => do
  if args.isEmpty then
    print (listVariables [] ((← get).vars.filter fun v => v.2.value.isSome))
  else
    let (_, rest) ← readSettings false (stepsFor args) true [] args false
    if let some args := rest then setArguments args
  return 0

def shiftCommand : Builtin := fun args => do
  let n ← firstNumber args 1
  let s ← get
  if n > s.args.length then giveUp .cannotShift
  setArguments (s.args.drop n)
  return 0

/-- What is read of a text up to the end of the line: the line in pieces, of which those behind a
backslash are written, the number of characters, and whether the line ended. -/
def readPieces (isRaw : Bool) : Text → List Piece × Nat × Bool
  | [] => ([], 0, false)
  | '\n' :: _ => ([], 1, true)
  | '\\' :: rest =>
    if isRaw then
      let (pieces, count, ended) := readPieces isRaw rest
      (addChar '\\' pieces, count + 1, ended)
    else match rest with
      | [] => ([.expanded [[]]], 1, false)
      | '\n' :: rest =>
        let (pieces, count, ended) := readPieces isRaw rest
        (.expanded [[]] :: pieces, count + 2, ended)
      | c :: rest =>
        let (pieces, count, ended) := readPieces isRaw rest
        (.expanded [[]] :: .written [c] :: pieces, count + 2, ended)
  | c :: rest =>
    let (pieces, count, ended) := readPieces isRaw rest
    (if c = '\x00' then pieces else addChar c pieces, count + 1, ended)
where
  addChar (c : Char) : List Piece → List Piece
    | .expanded [text] :: pieces => .expanded [c :: text] :: pieces
    | pieces => .expanded [[c]] :: pieces

/-- Reads a line into variables. The last one takes what is left for it. -/
def readCommand : Builtin := fun args => do
  let (letters, names) ← valuedOptions "r" "p" args
  if names.isEmpty then giveUp .noArgument
  let s ← get
  let isRaw := letters.any fun letter => letter.1 = 'r'
  let (pieces, count, ended) := readPieces isRaw (s.input.toOption.getD [])
  set (s.skipInput count)
  unless ended || (s.channel? 0).all fun entry => entry.2.isWhole do throw .starved
  let fields := textFields s.separators names.length pieces
  for (name, i) in names.zipIdx do
    assign name (fields[i]?.getD [])
  return if ended then 0 else 1

structure OptionStep where
  /-- The letter, or a question mark or colon for what is no option. -/
  letter : Char := '?'
  value : Option Text := none
  complaint : Option Text := none
  index : Nat
  offset : Option Nat := none
  done : Bool := false

/-- The next option among arguments, as the letters of a specification tell; a colon behind a
letter means that it has a value, and a colon in front that nothing is complained of. -/
def nextOption (spec : Text) (cursor : OptionCursor) (args : List Text) : OptionStep :=
  let arg? (index : Nat) : Option Text := if index = 0 then none else args[index - 1]?
  let current := do
    let offset ← cursor.offset
    let rest := ((← arg? (cursor.index - 1))).drop offset
    if cursor.index ≤ 1 ∨ rest.isEmpty then none else some (rest, cursor.index)
  let started : Except Nat (Text × Nat) := match current with
    | some found => .ok found
    | none => match arg? cursor.index with
      | some ['-', '-'] => .error (cursor.index + 1)
      | some ('-' :: c :: rest) => .ok (c :: rest, cursor.index + 1)
      | _ => .error cursor.index
  match started with
  | .error index => { index, done := true }
  | .ok ([], index) => { index, done := true }
  | .ok (c :: rest, index) =>
    let isQuiet := spec.head? = some ':'
    let offset (rest : Text) : Option Nat :=
      (arg? (index - 1)).map fun arg => arg.length - rest.length
    match if c = ':' ∧ !isQuiet then [] else spec.dropWhile (· ≠ c) with
    | [] =>
      if isQuiet then { value := some [c], index, offset := offset rest }
      else
        { complaint := some ("Illegal option -".toList ++ [c]), index, offset := offset rest }
    | _ :: ':' :: _ =>
      match rest, arg? index with
      | [], none =>
        if isQuiet then { letter := ':', value := some [c], index }
        else { complaint := some ("No arg for -".toList ++ c :: " option".toList), index }
      | [], some value => { letter := c, value := some value, index := index + 1 }
      | value, _ => { letter := c, value := some value, index }
    | _ => { letter := c, value := some [], index, offset := offset rest }

def getoptsCommand : Builtin := fun args => do
  let (_, args) ← options "" args
  let spec :: name :: given := args | giveUp (.usage "getopts optstring var [arg...]")
  let s ← get
  let args := if given.isEmpty then s.args else given
  let cursor := if s.cursor.index > args.length + 1 then {} else s.cursor
  let step := nextOption spec cursor args
  set { s with cursor := { index := args.length + 2 } }
  let argName := "OPTARG".toList
  if step.complaint.isSome then unassign argName
  if let some value := step.value then assign argName value
  if let some complaint := step.complaint then mutter (complaint ++ ['\n'])
  modify fun s => s.setValue "OPTIND".toList (Text.ofNat step.index)
  assign name [step.letter]
  modify fun s => { s with cursor := { index := step.index, offset := step.offset } }
  return if step.done then 1 else 0

def notFound (command : String) (name : Text) : Act Unit :=
  mutter (command.toList ++ ": ".toList ++ name ++ " not found\n".toList)

def aliasCommand : Builtin := fun args => do
  let show' (entry : Text × Text) : Text := definition entry.1 entry.2 ++ ['\n']
  if args.isEmpty then
    print ((inOrder 39 Prod.fst (← get).aliases).flatMap show')
    return 0
  let mut status := 0
  for arg in args do
    let (name, value) := match arg with
      | c :: rest => let (name, value) := nameAndValue rest; (c :: name, value)
      | [] => ([], none)
    match value with
    | some value => modify fun s => { s with aliases := Text.putNamed name value s.aliases }
    | none =>
      match (← get).aliases.lookup arg with
      | some value => print (show' (arg, value))
      | none =>
        notFound "alias" arg
        status := 1
  return status

def unaliasCommand : Builtin := fun args => do
  let (letters, rest) ← options "a" args
  if !letters.isEmpty then
    modify fun s => { s with aliases := [] }
    return 0
  let mut status := 0
  for name in rest do
    if ((← get).aliases.lookup name).isNone then
      notFound "unalias" name
      status := 1
    modify fun s => { s with aliases := s.aliases.filter fun entry => entry.1 ≠ name }
  return status

end FirmwareBuild.Posix.Act
