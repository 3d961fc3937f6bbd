import FirmwareBuild.Posix.Shell.Options

/-! # The working directory of a shell

A shell remembers the names that led to its working directory, so that `..` takes
the last of them away, whatever is on the disk. -/

namespace FirmwareBuild.Posix.Act

/-- A path, its end first, without the last name. Nothing is taken from the slashes in front, which
are so many. -/
def withoutLast (front : Nat) : Text → Text
  | [] => []
  | c :: rest =>
    if rest.length < front then c :: rest
    else if rest.head? = some '/' then rest
    else withoutLast front rest

/-- The path that another one leads to from a directory, by the names alone: `.` leads nowhere, and
`..` takes a name away. What the directory is called stays as it is otherwise, and two slashes in
front stay two. -/
def followedPath (directory path : Text) : Text :=
  let hasTwo (text : Text) : Bool := text.take 2 = ['/', '/']
  let (start, front) : Text × Nat :=
    if path.head? = some '/' then
      if hasTwo path && path[2]? ≠ some '/' then (['/', '/'], 2) else (['/'], 1)
    else
      let start := if directory.getLast? = some '/' then directory else directory ++ ['/']
      (start, if hasTwo start && start.length > 1 then 2 else 1)
  let names := (Text.split '/' path).filter (!·.isEmpty)
  let ended := names.foldl (fun (done : Text) name =>
    if name = ['.'] then done
    else if name = ['.', '.'] then withoutLast front done
    else '/' :: (name.reverse ++ done)) start.reverse
  (if ended.length > front then ended.tail else ended).reverse

/-- The path of the working directory. A directory that was removed has none, which is complained
of. -/
def physicalDirectory : Act Text := do
  match (← get).disk.cwdPath? with
  | some path => return ofOctets path
  | none =>
    complain .noDirectory
    return []

/-- Goes to a directory. Its names are followed first unless the disk is to do that. -/
def goTo (isPhysical : Bool) (shown target : Text) : Act Unit := do
  let s ← get
  let followed := followedPath s.directory target
  match Disk.enter (toOctets (if isPhysical then target else followed)) s.disk with
  | .error _ _ => giveUp (.cannotEnter shown)
  | .ok () disk =>
    set { s with disk }
    let directory ← if isPhysical then physicalDirectory else pure followed
    modify fun s => { s with directory }
    for (name, value) in [("OLDPWD", s.directory), ("PWD", directory)] do
      assign name.toList value
      modify fun s => s.exportVariable name.toList

def isSearched (path : Text) : Bool :=
  match path with
  | '/' :: _ | ['.'] | '.' :: '/' :: _ | ['.', '.'] | '.' :: '.' :: '/' :: _ => false
  | _ => true

/-- The directory that a path names below one of some others, and whether it is below one that has
a name. -/
def searchedDirectory? (disk : Disk) (path : Text) (directories : List Text) :
    Option (Text × Bool) :=
  directories.findSome? fun directory =>
    let candidate := if directory.isEmpty then path else directory ++ '/' :: path
    if disk.isDirectory (toOctets candidate) then some (candidate, !directory.isEmpty) else none

def cdCommand : Builtin := fun args => do
  let (letters, rest) ← options "LP" args
  let isPhysical := letters.getLast? = some 'P'
  let s ← get
  let (target, isBack) := match rest with
    | [] => (s.home?.getD [], false)
    | ['-'] :: _ => ((s.valueOf? "OLDPWD".toList).getD [], true)
    | target :: _ => (target, false)
  let path := if target.isEmpty then ['.'] else target
  let searched := (s.valueOf? "CDPATH".toList).map (Text.split ':')
  let found := if isSearched target then searched.bind (searchedDirectory? s.disk path) else none
  let (place, shows) := found.getD (path, false)
  goTo isPhysical target place
  if isBack || shows then print ((← get).directory ++ ['\n'])
  return 0

def pwdCommand : Builtin := fun args => do
  let (letters, _) ← options "LP" args
  let s ← get
  let path ← if letters.getLast? = some 'P' then physicalDirectory else pure s.directory
  print (path ++ ['\n'])
  return 0

/-- The working directory as a shell that starts remembers it: what a variable names, if it leads
there, and otherwise its path. -/
def startingDirectory? (disk : Disk) (value : Option Text) : Option Text :=
  let leadsThere (path : Text) : Bool :=
    path.head? == some '/' &&
      match disk.lookup (toOctets path) with
      | .ok (number, _) => number == disk.cwd
      | .error _ => false
  (value.filter leadsThere).or (disk.cwdPath?.map ofOctets)

end FirmwareBuild.Posix.Act
