import FirmwareBuild.Disk.Naming
import FirmwareBuild.Posix.Program.Making

/-! # Targets of copies, moves and links

How the programs that put something at another place read their arguments: the last
word is the target, or an option names a directory to put all of them into. And
what they do with a file that is in the way. -/

namespace FirmwareBuild.Posix

/-- What is put where: each source with its target. -/
abbrev Placements := List (Text × Text)

inductive BackupKind where
  | simple
  | numbered
  /-- Numbered if there are numbered ones already. -/
  | existing
  deriving DecidableEq, Repr

/-- The last name of a path, without slashes behind it. -/
def baseName (path : Text) : Text :=
  (Text.dropEnd (· == '/') path).reverse.takeWhile (· ≠ '/') |>.reverse

def insidePath (directory name : Text) : Text :=
  if directory.getLast? = some '/' then directory ++ name else directory ++ '/' :: name

/-- The words for kinds of backups. Without one there is none. -/
def backupWords : List (String × Option BackupKind) :=
  [("none", none), ("off", none), ("simple", some .simple), ("never", some .simple),
    ("existing", some .existing), ("nil", some .existing), ("numbered", some .numbered),
    ("t", some .numbered)]

namespace Tool

def backupOf (given : Given) : Tool (Option (BackupKind × Text)) := do
  let suffix := (given.value? "S").getD ['~']
  match given.last? ["b", "backup", "S"] with
  | none => return none
  | some _ =>
    let word := ((given.value? "backup").filter (!·.isEmpty)).getD "existing".toList
    match backupWords.find? fun entry => word = entry.1.toList with
    | some (_, kind) => return kind.map (·, suffix)
    | none => misuse 1 ("invalid argument ".toList ++ Quoted.escaped word ++
        " for 'backup type'".toList)

def backupPath (disk : Disk) (backup : BackupKind × Text) (path : Text) : Text :=
  let numbered (n : Nat) : Text := path ++ ".~".toList ++ Text.ofNat n ++ ['~']
  let isThere (n : Nat) : Bool := (disk.lookupLink (toOctets (numbered n))).toOption.isSome
  let count := ((List.range disk.nodes.size).takeWhile fun n => isThere (n + 1)).length
  let byNumber := backup.1 = .numbered || (backup.1 = .existing && count > 0)
  if byNumber then numbered (count + 1) else path ++ backup.2

def directoryAt (path : Text) : Tool (Except IoError Unit) := do
  match (← get).disk.lookup (toOctets path) with
  | .ok (_, node) => return if node.isDirectory then .ok () else .error .notADirectory
  | .error cause => return .error cause

/-- Checks the options of programs that put something at a target: a directory is named once, and
what becomes of files in the way is told by a known word. -/
def checkTarget (before : List (Text × Text)) (key value : Text) : Tool Unit := do
  if key = ['t'] && before.any (·.1 = ['t']) then
    giveUp 1 "multiple target directories specified".toList
  if key = ['u'] && !value.isEmpty then
    let _ ← oneOf "--update" ["all", "none", "older"] value

/-- What the words of a program put where. A target may be named by an option, or taken as it is
even if it is a directory. A source that is a directory above may come to stand for the target
itself. -/
def placements (given : Given) (followsTarget mergesAbove : Bool) : Tool Placements := do
  let words := given.words
  let into (directory : Text) (sources : List Text) : Placements :=
    sources.map fun source =>
      let base := baseName source
      (source, if mergesAbove && base = ['.', '.'] then directory
        else insidePath directory (if base.isEmpty then ['/'] else base))
  let lacking : Tool Unit := do
    match words with
    | [] => misuse 1 "missing file operand".toList
    | [word] => misuse 1 ("missing destination file operand after ".toList ++ Quoted.always word)
    | _ => return ()
  match given.value? "t" with
  | some directory =>
    if words.isEmpty then misuse 1 "missing file operand".toList
    if given.has "T" then
      giveUp 1 "cannot combine --target-directory (-t) and --no-target-directory (-T)".toList
    match ← directoryAt directory with
    | .ok () => return into directory words
    | .error cause => giveUp 1 (about "target directory" directory cause)
  | none =>
    lacking
    if given.has "T" then
      if let some word := words[2]? then
        misuse 1 ("extra operand ".toList ++ Quoted.always word)
      return [(words.headD [], words.getLastD [])]
    let target := words.getLastD []
    let isLink := match (← get).disk.lookupLink (toOctets target) with
      | .ok (_, .link _) => true
      | _ => false
    match ← directoryAt target with
    | .ok () =>
      if isLink && !followsTarget then return [(words.headD [], target)]
      return into target words.dropLast
    | .error cause =>
      if words.length > 2 then giveUp 1 (about "target" target cause)
      return [(words.headD [], target)]

end Tool

end FirmwareBuild.Posix
