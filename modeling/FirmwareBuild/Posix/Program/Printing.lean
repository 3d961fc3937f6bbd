import FirmwareBuild.Posix.Condition
import FirmwareBuild.Posix.Format
import FirmwareBuild.Posix.Program.Arguments

/-! # Programs that print what they are given

Programs that print texts, numbers, names and variables, check conditions, or do
nothing but end with a status. -/

namespace FirmwareBuild.Posix.Program

open Tool

def constant (status : Nat) : Program := spoil status

/-- Prints its arguments. The options are letters that switch the line feed and the escapes. -/
def echo : Program := do
  let isOption (arg : Text) : Bool :=
    match arg with
    | '-' :: c :: rest => (c :: rest).all fun c => ['n', 'e', 'E'].contains c
    | _ => false
  let args := (← get).args
  let letters := (args.takeWhile isOption).flatten
  let escapes := (letters.filter fun c => ['e', 'E'].contains c).getLast? = some 'e'
  say (echoText .echo escapes (!letters.contains 'n') (args.dropWhile isOption))

def printf : Program := do
  let args := (← get).args
  let args := if args.head? = some ['-', '-'] then args.tail else args
  if args.isEmpty then misuse 1 "missing operand".toList
  let (output, warnings, mistake) := printfText .installed args
  say output
  for warning in warnings do fail 1 (warning.description .installed)
  if let some mistake := mistake then fail 1 (mistake.description .installed)

/-- The seconds that the letters behind the numbers of naps stand for. -/
def napUnits : List (Option Char × Nat) :=
  [(none, 1), (some 's', 1), (some 'm', 60), (some 'h', 3600), (some 'd', 86400)]

def napLength? (arg : Text) : Option Time := do
  let found := Floating.read .extended arg
  let seconds ← napUnits.lookup found.rest.head?
  if !found.hasDigits || found.value.isNegative || found.rest.length > 1 then none
  else match found.value.magnitude with
    | .finite n unit => some ((n * seconds * 1000000000 + unit - 1) / unit : Nat)
    | .infinite => some Time.beginning
    | .undefined => none

/-- Waits. That time passes is left to what runs the program. -/
def sleep : Program := do
  let given ← given 1 (.of "" [])
  if (← get).args.isEmpty then misuse 1 "missing operand".toList
  let wrong := given.words.filter fun word => (napLength? word).isNone
  for word in wrong do complain ("invalid time interval ".toList ++ Quoted.escaped word)
  unless wrong.isEmpty do refer 1

/-- Whether a path leads to the working directory without `.` and `..`. -/
def leadsHere (disk : Disk) (path : Text) : Bool :=
  let octets := toOctets path
  Pathname.isAbsolute octets &&
    (Pathname.names octets).all (fun name => name ≠ Pathname.here && name ≠ Pathname.up) &&
    match disk.lookup octets with
    | .ok (number, _) => number == disk.cwd
    | .error _ => false

def pwd : Program := do
  let given ← given 1 (.of "LP" [("logical", "L"), ("physical", "P")])
  unless given.words.isEmpty do complain "ignoring non-option arguments".toList
  let disk := (← get).disk
  let isLogical := given.last? ["L", "P"] = some ['L']
  let named := (← namedValue? "PWD").filter fun path => isLogical && leadsHere disk path
  match named, disk.cwdPath? with
  | some path, _ => say (path ++ ['\n'])
  | none, some path => say (ofOctets path ++ ['\n'])
  | none, none =>
    giveUp 1 "couldn't find directory entry in '..' with matching i-node".toList

def sayVariables (behind : Char) (env : List (Text × Text)) : Tool Unit :=
  say (env.flatMap fun (name, value) => name ++ '=' :: value ++ [behind])

def printenv : Program := do
  let given ← given 2 { OptionTable.of "0" [("null", "0")] with stopsAtWord := true }
  let behind := if given.has "0" then '\x00' else '\n'
  let env := (← get).env
  if given.words.isEmpty then sayVariables behind env
  for name in given.words do
    match if name.contains '=' then none else env.lookup name with
    | some value => say (value ++ [behind])
    | none => spoil 1

def test : Program := do
  let w ← get
  match Condition.decide w.disk w.args with
  | .ok holds => spoil (if holds then 0 else 1)
  | .error mistake => giveUp 2 mistake

def bracket : Program := do
  let w ← get
  if w.args.getLast? ≠ some [']'] then giveUp 2 "missing ']'".toList
  match Condition.decide w.disk w.args.dropLast with
  | .ok holds => spoil (if holds then 0 else 1)
  | .error mistake => giveUp 2 mistake

/-- The last name of a path, which is a slash for the root. -/
def lastName (path : Bytes) : Bytes :=
  if Pathname.names path = [] ∧ path ≠ [] then [Pathname.slash]
  else (Pathname.names path).getLastD []

def tooMany {α : Type} (status : Nat) (word : Text) : Tool α :=
  misuse status ("extra operand ".toList ++ Quoted.escaped word)

def tooFew {α : Type} (status : Nat) : Tool α := misuse status "missing operand".toList

/-- Prints the last names of paths, perhaps without an ending. -/
def basename : Program := do
  let table := OptionTable.of "as:z" [("multiple", "a"), ("suffix=", "s"), ("zero", "z")]
  let given ← given 1 { table with stopsAtWord := true }
  let behind := if given.has "z" then '\x00' else '\n'
  let short (ending path : Text) : Text :=
    let name := ofOctets (lastName (toOctets path))
    let start := name.take (name.length - ending.length)
    if start.isEmpty || start ++ ending ≠ name || name = ['/'] then name else start
  if given.has "a" || given.has "s" then
    if given.words.isEmpty then tooFew 1
    for path in given.words do say (short ((given.value? "s").getD []) path ++ [behind])
  else match given.words with
    | [] => tooFew 1
    | [path] => say (short [] path ++ [behind])
    | [path, ending] => say (short ending path ++ [behind])
    | _ :: _ :: word :: _ => tooMany 1 word

def withoutLast (path : Bytes) : Bytes :=
  let octets := Text.dropEnd (· == Pathname.slash) path
  let above := Text.dropEnd (· == Pathname.slash) (Text.dropEnd (· != Pathname.slash) octets)
  if !above.isEmpty then above
  else if Pathname.isAbsolute path then [Pathname.slash] else Pathname.here

def dirname : Program := do
  let given ← given 1 (.of "z" [("zero", "z")])
  if given.words.isEmpty then tooFew 1
  for path in given.words do
    say (ofOctets (withoutLast (toOctets path)) ++ [if given.has "z" then '\x00' else '\n'])

/-- Prints a line again and again, as long as there is room. -/
def yes : Program := do
  let given ← given 1 (.of "" [])
  let line := Text.join [' '] (if given.words.isEmpty then [['y']] else given.words) ++ ['\n']
  let room := (← get).room.getD 0
  say ((List.replicate (room / line.length + 1) line).flatten)

end FirmwareBuild.Posix.Program
