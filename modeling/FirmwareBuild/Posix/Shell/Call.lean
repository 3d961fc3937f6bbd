import FirmwareBuild.Posix.Shell.Builtin
import FirmwareBuild.Posix.Shell.Reader
import FirmwareBuild.Posix.Shell.Tilde

/-! # What commands call

What the words of a command call once they are expanded, how redirections are
opened, and what a program and a shell start with. -/

namespace FirmwareBuild.Posix

/-- How a word is expanded. -/
structure Expansion where
  /-- It stands in double quotes, or where their rules hold. -/
  quoted : Bool := false
  splits : Bool := false
  /-- It stands in the braces of a parameter, so what is written in it may separate fields. -/
  inner : Bool := false
  assigned : Bool := false

def Expansion.pieces (expansion : Expansion) (value : Text) : List Piece :=
  [if expansion.quoted then .quoted value else .expanded [value]]

/-- Texts that are what a parameter stands for. All arguments together are many of them. -/
structure Held where
  texts : List Text
  /-- Each of them is a field of its own even in quotes. -/
  isEach : Bool := false

namespace Held

/-- The character that stands between the texts where they are one. -/
def border : Char := '\x00'

def joined (held : Held) : Text := Text.join [border] held.texts

def pieces (held : Held) (expansion : Expansion) : List Piece :=
  if !expansion.quoted then [.expanded held.texts]
  else if !held.isEach then [.quoted held.texts.flatten]
  else if held.texts.isEmpty then [] else [.each held.texts]

def change (held : Held) (drop : List Text → List Text) : Held :=
  { held with texts := drop held.texts }

end Held

inductive Opening where
  | file (stream : Nat) (mode : OpenMode) (path : Text)
  /-- A stream that leads where another one does, or nowhere. -/
  | copy (stream : Nat) (source : Option Nat)
  | document (stream : Nat) (word : Word)

inductive Callee where
  | nothing
  | function (body : Script)
  | builtin (isSpecial : Bool)
  | program

/-- A command that is about to be called. -/
structure Call where
  callee : Callee := .nothing
  name : Text := []
  args : List Text := []
  /-- It was called through `command`, so that a mistake does not end the shell. -/
  isGuarded : Bool := false
  /-- Its program is looked for along the standard search path. -/
  isStandard : Bool := false

namespace Call

/-- The command that the arguments of `command` call, and whether along the standard search path.
There is none if they ask for something else. -/
def guarded? : (standard : Bool) → List Text → Option (Bool × List Text)
  | _, [] => none
  | standard, ['-', '-'] :: rest => if rest.isEmpty then none else some (standard, rest)
  | _, ('-' :: c :: letters) :: rest =>
    if (c :: letters).all (· == 'p') then guarded? true rest else none
  | standard, rest => some (standard, rest)

def ofFields (s : Shell) : Nat → (isGuarded isStandard : Bool) → List Text → Call
  | 0, _, _, _ => {}
  | _, _, _, [] => {}
  | steps + 1, isGuarded, isStandard, name :: args =>
    let call : Call := { name, args, isGuarded, isStandard }
    match if isGuarded then none else s.functions.lookup name with
    | some body => { call with callee := .function body }
    | none =>
      if name = "command".toList then
        match guarded? isStandard args with
        | some (isStandard, rest) => ofFields s steps true isStandard rest
        | none => { call with callee := .builtin false }
      else if isOwnCommand name then
        { call with callee := .builtin (specialCommands.contains name) }
      else { call with callee := .program }

/-- Whether a mistake in the command ends the shell, and its assignments stay. -/
def isSpecial (call : Call) : Bool :=
  match call.callee with
  | .builtin isSpecial => isSpecial && !call.isGuarded
  | _ => false

def keepsAssignments (call : Call) : Bool :=
  match call.callee with
  | .nothing => true
  | _ => call.isSpecial

/-- Whether the command is the one that replaces the shell, or changes where its streams lead. -/
def isReplacement (call : Call) : Bool :=
  match call.callee with
  | .builtin _ => call.name = "exec".toList
  | _ => false

end Call

/-- Whether words so far call a command whose arguments may be assignments. -/
def declares (s : Shell) (fields : List Text) : Bool :=
  let call := Call.ofFields s (fields.length + 1) false false fields
  match call.callee with
  | .builtin _ => declaringCommands.contains call.name
  | _ => false

def sleepName : Text := "sleep".toList

/-- The variables of a shell that starts: its own ones, and those of its environment that can be
named. The separators of fields and the number of the next option are always its own. -/
def startingVariables (directory : Text) (env : List (Text × Text)) : List (Text × Variable) :=
  let own (name value : String) : Text × Variable :=
    (name.toList, { value := some value.toList, isFixed := true })
  let first := [own "IFS" " \t\n", own "PATH" (String.ofList Act.standardPath), own "PS1" "# ",
    own "PS2" "> ", own "PS4" "+ ", own "OPTIND" "1"]
  let named := (env.filter fun entry => isName entry.1).foldl (fun vars (name, value) =>
    Text.putNamed name
      { (vars.lookup name).getD {} with value := some value, isExported := true } vars) first
  let again := [first[0], first[5], own "PPID" "0"].foldl (fun vars (name, v) =>
    Text.putNamed name { (vars.lookup name).getD {} with value := v.value } vars) named
  let pwd := "PWD".toList
  Text.putNamed pwd
    { (again.lookup pwd).getD {} with value := some directory, isExported := true } again

def Shell.started (s : Shell) (name directory : Text) (env : List (Text × Text)) : Shell :=
  let ignored := s.ignored ++ (s.traps.filter fun trap => trap.2.isEmpty).map Prod.fst
  { s with
    toProcess :=
      { pid := s.pid, shellPid := s.pid, streams := s.streams, level := s.level, name, ignored
        directory, fileMask := s.fileMask, vars := startingVariables directory env } }

end FirmwareBuild.Posix
