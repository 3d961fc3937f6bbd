import FirmwareBuild.Posix.Format
import FirmwareBuild.Posix.Program
import FirmwareBuild.Posix.Shell.Arithmetic
import FirmwareBuild.Posix.Shell.Test
import FirmwareBuild.Posix.Shell.Token

/-! # Complaints of a shell

What a shell and the commands that it has itself can complain of. -/

namespace FirmwareBuild.Posix

/-- The number of functions that may be at work inside each other. -/
def deepest : Nat := 1000

inductive Complaint where
  | program (name : Text) (cause : IoError)
  | unknown (name : Text)
  | cannotOpen (path : Text) (cause : IoError)
  | cannotCreate (path : Text) (cause : IoError)
  | closedStream (stream : Nat)
  /-- A word that names no stream. -/
  | noStream
  | script (mistake : ScriptMistake)
  | unset (name : Text) (orEmpty : Bool)
  /-- A parameter that has to be set, in the words of the script. -/
  | required (name words : Text)
  | badSubstitution
  | badName (name : Text)
  | readOnly (name : Text)
  | arithmetic (expression : Text) (mistake : ArithmeticMistake)
  | noNumber (text : Text)
  | noOption (letter : Char)
  | noSetting (value : Bool) (name : Text)
  | noValue (letter : Char)
  | noArgument
  | noCommandText
  | cannotEnter (path : Text)
  /-- The working directory was removed. -/
  | noDirectory
  | cannotShift
  | outsideFunction
  | tooDeep
  | noMode (text : Text)
  | noJob (name : Text)
  | noCurrentJob
  | noProcess
  | noSignal (name : Text)
  | noStatus (text : Text)
  | usage (form : String)
  | lostOutput (command : Text)
  | condition (mistake : ShellTest.Mistake)
  | openBracket
  | formatWarning (warning : FormatWarning)
  | format (mistake : FormatMistake)
  deriving DecidableEq, Repr

namespace Complaint

def causeOf (missing : String) (cause : IoError) : Text :=
  if cause = .notFound ∨ cause = .notADirectory then missing.toList else causeText cause

def description : Complaint → Text
  | program name cause => name ++ ": ".toList ++ causeOf "not found" cause
  | unknown name => name ++ ": not found".toList
  | cannotOpen path cause =>
    "cannot open ".toList ++ path ++ ": ".toList ++ causeOf "No such file" cause
  | cannotCreate path cause =>
    "cannot create ".toList ++ path ++ ": ".toList ++ causeOf "Directory nonexistent" cause
  | closedStream stream => Text.ofNat stream ++ ": Bad file descriptor".toList
  | noStream => "Syntax error: Bad fd number".toList
  | script mistake => "Syntax error: ".toList ++ mistake.description
  | unset name orEmpty =>
    name ++ (if orEmpty then ": parameter not set or null" else ": parameter not set").toList
  | required name words => name ++ ": ".toList ++ words
  | badSubstitution => "Bad substitution".toList
  | badName name => name ++ ": bad variable name".toList
  | readOnly name => name ++ ": is read only".toList
  | arithmetic expression mistake => mistake.description expression
  | noNumber text => "Illegal number: ".toList ++ text
  | noOption letter => "Illegal option -".toList ++ [letter]
  | noSetting value name =>
    (if value then "Illegal option -o " else "Illegal option +o ").toList ++ name
  | noValue letter => "No arg for -".toList ++ letter :: " option".toList
  | noArgument => "arg count".toList
  | noCommandText => "-c requires an argument".toList
  | cannotEnter path => "can't cd to ".toList ++ path
  | noDirectory => "getcwd() failed: ".toList ++ causeText .notFound
  | cannotShift => "can't shift that many".toList
  | outsideFunction => "not in a function".toList
  | tooDeep =>
    "Maximum function recursion depth (".toList ++ Text.ofNat deepest ++ ") reached".toList
  | noMode text => "Illegal mode: ".toList ++ text
  | noJob name => "No such job: ".toList ++ name
  | noCurrentJob => "No current job".toList
  | noProcess => "No such process\n".toList
  | noSignal name => "invalid signal number or name: ".toList ++ name
  | noStatus text => "invalid signal number or exit status: ".toList ++ text
  | usage form => "Usage: ".toList ++ form.toList
  | lostOutput command => command ++ ": I/O error".toList
  | condition mistake => mistake.description
  | openBracket => "missing ]".toList
  | formatWarning warning => warning.description .shell
  | format mistake => mistake.description .shell

end Complaint

end FirmwareBuild.Posix
