import FirmwareBuild.Posix.Program.Characters
import FirmwareBuild.Posix.Program.Copying
import FirmwareBuild.Posix.Program.Counting
import FirmwareBuild.Posix.Program.Fields
import FirmwareBuild.Posix.Program.Linking
import FirmwareBuild.Posix.Program.Listing
import FirmwareBuild.Posix.Program.Searching
import FirmwareBuild.Posix.Program.Sequence
import FirmwareBuild.Posix.Program.Sorting

/-! # Installed programs

The native programs that are found along the search path, besides the shell and the
program that changes the environment of others. -/

namespace FirmwareBuild.Posix.Program

def installed : List (Text × Program) :=
  [("true", constant 0), ("false", constant 1), ("sleep", sleep), ("echo", echo),
    ("printf", printf), ("cat", cat), ("pwd", pwd), ("printenv", printenv), ("test", test),
    ("[", bracket), ("mkdir", mkdir), ("rmdir", rmdir), ("touch", touch), ("rm", rm), ("cp", cp),
    ("mv", mv), ("ln", ln), ("link", link), ("unlink", unlink), ("chmod", chmod), ("ls", ls),
    ("readlink", readlink), ("realpath", realpath), ("basename", basename),
    ("dirname", dirname), ("seq", seq), ("yes", yes), ("head", head), ("tail", tail), ("wc", wc),
    ("sort", sort), ("uniq", uniq), ("tr", tr), ("cut", cut), ("tee", tee), ("tac", tac),
    ("rev", rev), ("grep", grep), ("egrep", grepAs 'E'), ("fgrep", grepAs 'F')].map
    fun (name, program) => (name.toList, program)

/-- The programs that write what they make of their input before they have all of it. -/
def gradual : List Text :=
  ["cat", "tee", "tr", "cut", "grep", "egrep", "fgrep", "rev", "uniq"].map String.toList

def lossStatus (program : Text) : Nat :=
  (([("printenv", 2), ("ls", 2), ("sort", 2), ("grep", 2), ("egrep", 2), ("fgrep", 2),
    ("env", 125)].map fun (name, status) => (String.toList name, status)).lookup program).getD 1

/-- What a program that was called by a name says when it could not write all of its output. A
complaint in between makes it forget the cause of what it only notices at the end. -/
def lossReport (program name : Text) (cause : IoError) (complainedBefore : Bool) : Text :=
  let named (text : String) : Text := name ++ ": ".toList ++ text.toList
  let because : Text := ": ".toList ++ causeText cause ++ ['\n']
  match String.ofList program with
  | "tee" => named "'standard output'" ++ because
  | "yes" => named "standard output" ++ because
  | "sort" =>
    named "fflush failed: 'standard output'" ++ because ++ named "write error" ++ ['\n']
  | other =>
    if cause = .noSpace && (complainedBefore || other = "wc") then named "write error\n"
    else named "write error" ++ because

end FirmwareBuild.Posix.Program
