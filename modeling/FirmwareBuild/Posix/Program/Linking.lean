import FirmwareBuild.Disk.Canonical
import FirmwareBuild.Posix.Program.Target

/-! # Links

A program that makes links, and programs that tell where they lead. -/

namespace FirmwareBuild.Posix.Program

open Tool

/-! ## Making links -/

structure LinkingRule where
  isSymbolic : Bool
  followsSources : Bool
  takesDirectories : Bool
  isRelative : Bool
  isForced : Bool
  asks : Bool
  isLoud : Bool
  backup : Option (BackupKind × Text)

def linkFailure (rule : LinkingRule) (source target : Text) (cause : IoError) : Text :=
  let kind := if rule.isSymbolic then "symbolic" else "hard"
  let arrow := if rule.isSymbolic then " -> " else " => "
  let isShort := if rule.isSymbolic then !source.isEmpty && cause ≠ .nameTooLong
    else cause = .alreadyExists || cause = .noSpace
  ("failed to create " ++ kind ++ " link ").toList ++ Quoted.always target ++
    (if isShort then [] else arrow.toList ++ Quoted.always source) ++ ": ".toList ++
    causeText cause

/-- A source as it is written in a link at a target: seen from the directory of the target. -/
def relativeSource (disk : Disk) (source target : Text) : Text :=
  let above := withoutLast (toOctets target)
  match disk.canonical .nothing above, disk.canonical .nothing (toOctets source) with
  | .ok base, .ok location => ofOctets (Disk.relativeTo base location)
  | _, _ => source

def linkOne (rule : LinkingRule) (source target : Text) : Tool Unit := do
  let disk := (← get).disk
  let octets := toOctets target
  let found := disk.look rule.followsSources (toOctets source)
  if !rule.isSymbolic then
    match found with
    | .error cause => return ← fail 1 (about "failed to access" source cause)
    | .ok (_, node) =>
      if node.isDirectory && !rule.takesDirectories then
        return ← fail 1 (Quoted.name source ++ ": hard link not allowed for directory".toList)
  let written := if rule.isRelative then relativeSource disk source target else source
  let change : Disk.Change Unit :=
    if rule.isSymbolic then Disk.makeLink (toOctets written) octets
    else fun disk => match found with
      | .ok (number, _) => Disk.giveName number octets disk
      | .error cause => .error cause disk
  let done (kept : Option Text) : Tool Unit :=
    if rule.isLoud then
      say ((match kept with
        | some path => Quoted.always path ++ " ~ ".toList
        | none => []) ++ Quoted.always target ++
        (if rule.isSymbolic then " -> " else " => ").toList ++ Quoted.always written ++ ['\n'])
    else return ()
  match ← attempt change with
  | .ok () => done none
  | .error .alreadyExists =>
    if !rule.isForced && !rule.asks && rule.backup.isNone then
      return ← fail 1 (linkFailure rule written target .alreadyExists)
    match disk.lookupLink octets with
    | .error cause => fail 1 (about "failed to access" target cause)
    | .ok (number, node) =>
      if node.isDirectory then
        return ← fail 1 (Quoted.name target ++ ": cannot overwrite directory".toList)
      let sourceNumber := if rule.isSymbolic then
          (disk.lookup (toOctets source)).toOption.map Prod.fst
        else found.toOption.map Prod.fst
      let isChecked := if rule.isSymbolic then rule.isForced && rule.backup.isNone
        else rule.isForced || rule.backup.isSome
      if isChecked && sourceNumber = some number &&
          (disk.nameCount number = 1 || disk.areSameName (toOctets source) octets) then
        return ← fail 1 (Quoted.always source ++ " and ".toList ++ Quoted.always target ++
          " are the same file".toList)
      if rule.asks then
        unless ← agrees ("replace ".toList ++ Quoted.always target) do return ← spoil 1
      match rule.backup with
      | some backup =>
        let kept := backupPath disk backup target
        match ← attempt (Disk.rename octets (toOctets kept)) with
        | .error cause => fail 1 (about "cannot backup" target cause)
        | .ok () =>
          match ← attempt change with
          | .ok () => done (some kept)
          | .error cause => fail 1 (linkFailure rule written target cause)
      | none =>
        let isSame := !rule.isSymbolic && sourceNumber = some number
        if isSame then return ← done none
        let _ ← attempt (Disk.unlink octets)
        match ← attempt change with
        | .ok () => done none
        | .error cause => fail 1 (linkFailure rule written target cause)
  | .error cause => fail 1 (linkFailure rule written target cause)

/-- Checks the options for links: the directory that they go into is named once and is there. -/
def checkLinkTarget (before : List (Text × Text)) (key value : Text) : Tool Unit := do
  checkTarget before key value
  if key = ['t'] then
    match ← directoryAt value with
    | .ok () => return ()
    | .error .notADirectory =>
      giveUp 1 ("target ".toList ++ Quoted.always value ++ " is not a directory".toList)
    | .error cause => giveUp 1 (about "failed to access" value cause)

/-- Makes links. Without a target they go into the working directory. -/
def ln : Program := do
  let table := OptionTable.of "bdfinrst:vFLPS:T" [("backup?", "backup"), ("directory", "d"),
    ("no-dereference", "n"), ("no-target-directory", "T"), ("force", "f"), ("interactive", "i"),
    ("suffix=", "S"), ("target-directory=", "t"), ("logical", "L"), ("physical", "P"),
    ("relative", "r"), ("symbolic", "s"), ("verbose", "v")]
  let given ← givenChecked 1 table checkLinkTarget
  let rule : LinkingRule :=
    { isSymbolic := given.has "s", followsSources := given.last? ["L", "P"] = some ['L']
      takesDirectories := given.has "d" || given.has "F", isRelative := given.has "r"
      isForced := given.last? ["f", "i"] = some ['f'], asks := given.last? ["f", "i"] = some ['i']
      isLoud := given.has "v", backup := ← backupOf given }
  if given.words.isEmpty then misuse 1 "missing file operand".toList
  if rule.isRelative && !rule.isSymbolic then
    giveUp 1 "cannot do --relative without --symbolic".toList
  let isAlone := given.words.length = 1 && !given.has "t" && !given.has "T"
  let given := if isAlone then { given with words := given.words ++ [['.']] } else given
  for (source, target) in ← placements given (!given.has "n") false do linkOne rule source target

/-! ## Following links -/

def shownLocation (location : Location) : Text := ofOctets (Disk.pathOf location)

def readlink : Program := do
  let given ← given 1 (.of "efmnqsvz" [("canonicalize", "f"), ("canonicalize-existing", "e"),
    ("canonicalize-missing", "m"), ("no-newline", "n"), ("quiet", "q"), ("silent", "s"),
    ("verbose", "v"), ("zero", "z")])
  if given.words.isEmpty then tooFew 1
  let isMany := given.words.length > 1
  if given.has "n" && isMany then
    complain "ignoring --no-newline with multiple arguments".toList
  let behind := if given.has "n" && !isMany then []
    else [if given.has "z" then '\x00' else '\n']
  let presence? : Option Disk.Presence := match given.last? ["e", "f", "m"] with
    | some ['e'] => some .everything
    | some ['f'] => some .allButLast
    | some _ => some .nothing
    | none => none
  for path in given.words do
    let disk := (← get).disk
    let found : Except IoError Text := match presence? with
      | some presence => (disk.canonical presence (toOctets path)).map shownLocation
      | none => match disk.lookupLink (toOctets path) with
        | .ok (_, .link target) => .ok (ofOctets target)
        | .ok _ => .error .invalidArgument
        | .error cause => .error cause
    match found with
    | .ok text => say (text ++ behind)
    | .error cause =>
      if given.last? ["q", "s", "v"] = some ['v'] then
        complain (Quoted.name path ++ ": ".toList ++ causeText cause)
      spoil 1

/-- Prints the paths that lead where others lead, without links and dots. -/
def realpath : Program := do
  let given ← given 1 (.of "eLmPqsz" [("canonicalize-existing", "e"), ("canonicalize-missing", "m"),
    ("relative-to=", "to"), ("relative-base=", "base"), ("quiet", "q"), ("strip", "s"),
    ("no-symlinks", "s"), ("zero", "z"), ("logical", "L"), ("physical", "P")])
  if given.words.isEmpty then tooFew 1
  let presence : Disk.Presence := match given.last? ["e", "m"] with
    | some ['e'] => .everything
    | some _ => .nothing
    | none => .allButLast
  let mode := given.last? ["L", "P", "s"]
  let canonical (path : Text) : Tool (Except IoError Location) := do
    let disk := (← get).disk
    let octets := toOctets path
    if mode = some ['s'] then return disk.written presence octets
    else if mode = some ['L'] then
      match disk.written presence octets with
      | .ok location => return disk.canonical presence (Disk.pathOf location)
      | .error cause => return .error cause
    else return disk.canonical presence octets
  let named (key : String) : Tool (Option Location) := do
    match given.value? key with
    | none => return none
    | some path =>
      match ← canonical path with
      | .ok location => return some location
      | .error cause => giveUp 1 (Quoted.name path ++ ": ".toList ++ causeText cause)
  let start? ← named "to"
  let base? ← named "base"
  for path in given.words do
    match ← canonical path with
    | .error cause =>
      if !given.has "q" then complain (Quoted.name path ++ ": ".toList ++ causeText cause)
      spoil 1
    | .ok location =>
      let isBelow (base : Location) : Bool := base.isPrefixOf location
      let shown := match start?, base? with
        | some start, none => ofOctets (Disk.relativeTo start location)
        | none, some base =>
          if isBelow base then ofOctets (Disk.relativeTo base location) else shownLocation location
        | some start, some base =>
          if isBelow base && base.isPrefixOf start then ofOctets (Disk.relativeTo start location)
          else shownLocation location
        | none, none => shownLocation location
      say (shown ++ [if given.has "z" then '\x00' else '\n'])

end FirmwareBuild.Posix.Program
