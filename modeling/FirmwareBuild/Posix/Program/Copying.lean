import FirmwareBuild.Posix.Program.Target

/-! # Copying and moving

Programs that copy files and trees of directories, or move them. A file that is in
the way is overwritten, kept under another name, or left alone, and nothing is ever
put onto itself. -/

namespace FirmwareBuild.Posix.Program

open Tool

inductive LinkRule where
  | never
  | arguments
  | always
  deriving DecidableEq, Repr

/-- What becomes of a file that is in the way. -/
inductive Overwriting where
  | always
  | ask
  /-- It is left alone unless it is older. -/
  | older
  | skip
  /-- It is left alone, and that counts as a failure. -/
  | refuse
  deriving DecidableEq, Repr

structure PutRule where
  isMove : Bool := false
  takesTrees : Bool := false
  links : LinkRule := .always
  overwriting : Overwriting := .always
  /-- A target that cannot be written to is removed. -/
  isForced : Bool := false
  removesFirst : Bool := false
  isLoud : Bool := false
  /-- Files get one more name, or a symbolic link, in the place of a copy. -/
  makesNames : Bool := false
  makesLinks : Bool := false
  keepsMode : Bool := false
  keepsTime : Bool := false
  keepsNames : Bool := false
  keepsData : Bool := false
  backup : Option (BackupKind × Text) := none

/-- What was done for the arguments so far. -/
structure Trail where
  /-- The sources that were named, each with its node. -/
  sources : List (Text × Nat) := []
  targets : List Text := []
  /-- The nodes that were copied, each with the path of its copy. -/
  copied : List (Nat × Text) := []
  /-- A directory was made for the present argument. -/
  hasDirectory : Bool := false
  /-- A directory was about to be copied into itself. -/
  isInside : Bool := false

structure Put where
  source : Text
  target : Text
  /-- The argument that it belongs to. -/
  topSource : Text
  topTarget : Text
  isArgument : Bool

def aboutBoth (before : String) (first : Text) (between : String) (second : Text) : Text :=
  before.toList ++ Quoted.always first ++ between.toList ++ Quoted.always second

/-- What a path leads to, or what it names. -/
def seenAt (follows : Bool) (disk : Disk) (path : Text) : Except IoError (Nat × Node) :=
  disk.look follows (toOctets path)

def isLink : Node → Bool
  | .link _ => true
  | _ => false

/-- Whether a source may be put at a target that is there: they are not the same file, or this
does no harm. Nothing is left to do if they are names of one node that stay. -/
def mayPut (rule : PutRule) (disk : Disk) (put : Put) (source target : Nat × Node) :
    Bool × Bool :=
  let same := source.1 == target.1
  let areOneName := disk.areSameName (toOctets put.source) (toOctets put.target)
  let linkOf (path : Text) : Option (Nat × Node) := (seenAt false disk path).toOption
  if same && rule.makesNames then (true, true)
  else if rule.links = .never && isLink source.2 && isLink target.2 then
    if areOneName then (false, false)
    else if rule.backup.isSome then (true, false)
    else if same then (!rule.isMove, true)
    else (true, false)
  else if rule.links ≠ .never && !same then (true, false)
  else
    let (source', target') :=
      if rule.links = .never then (some source, some target)
      else (linkOf put.source, linkOf put.target)
    match source', target' with
    | some (m, from'), some (n, to') =>
      if rule.links ≠ .never && isLink from' && isLink to' && rule.removesFirst then (true, false)
      else if rule.backup.isSome && m ≠ n &&
          !(!rule.isMove && rule.links ≠ .never && isLink from' && !isLink to') then (true, false)
      else if rule.backup.isSome then (!areOneName, false)
      else if (rule.isMove || rule.removesFirst) && isLink to' then (true, false)
      else if (rule.isMove || rule.removesFirst) && m = n && disk.nameCount n > 1 &&
          !areOneName then (!rule.isMove, false)
      else if !isLink from' && !isLink to' && m ≠ n then (true, false)
      else if rule.isMove && isLink from' && disk.nameCount n > 1 then (true, false)
      else if rule.makesLinks && isLink to' then (true, false)
      else if rule.links = .never then
        let end? (path : Text) : Option Nat := ((seenAt true disk path).toOption).map Prod.fst
        match end? put.source, end? put.target with
        | some a, some b => (a ≠ b, false)
        | _, _ => (true, false)
      else (false, false)
    | _, _ => (true, false)

def refused (trail : Trail) (text : Text) : Tool (Trail × Bool) := do
  fail 1 text
  return (trail, false)

def sayPut (rule : PutRule) (what : String) (put : Put) (kept : Option Text) : Tool Unit :=
  if rule.isLoud then
    say (what.toList ++ aboutBoth "" put.source " -> " put.target ++
      (match kept with
        | some path => " (backup: ".toList ++ Quoted.always path ++ [')']
        | none => []) ++ ['\n'])
  else return ()

/-- The disk where a node counts as changed when another one was, if times are kept. -/
def keepTime (rule : PutRule) (disk : Disk) (source target : Nat) : Disk :=
  if rule.keepsTime then disk.setTime target (disk.timeOf source) else disk

def putFile (rule : PutRule) (put : Put) (source : Nat × Node) (isNew : Bool) :
    Tool Bool := do
  let w ← get
  let mode := source.2.mode?.getD 0x1B6
  let octets := toOctets put.target
  let isDangling := isNew && match w.disk.lookupLink octets with
    | .ok (_, .link _) => true
    | _ => false
  if isDangling then
    fail 1 ("not writing through dangling symlink ".toList ++ Quoted.always put.target)
    return false
  let mask := if rule.keepsMode then 0 else w.fileMask
  match ← attempt (Disk.openFile octets (Mode.without (mode &&& Mode.everything) mask)) with
  | .error cause =>
    let cause := if cause = .isADirectory then .notADirectory else cause
    fail 1 (about "cannot create regular file" put.target cause)
    return false
  | .ok number =>
    if (← get).disk.nodes[number]? = some (.device .full) && source.2.size > 0 then
      fail 1 (about "error writing" put.target .noSpace)
      return false
    modify fun w =>
      let disk := if rule.keepsData then w.disk else w.disk.copyData source.1 number
      let disk := if rule.keepsMode && source.2.isFile then disk.setMode number mode else disk
      { w with disk := keepTime rule disk source.1 number }
    return true

/-- Gives a node the name of a target, which is taken away first if that is asked for. -/
def putName (rule : PutRule) (put : Put) (change : Disk.Change Unit) (complaint : Text) :
    Tool Bool := do
  let octets := toOctets put.target
  let first ← attempt change
  let made ← match first with
    | .error .alreadyExists =>
      if rule.isForced || rule.overwriting = .ask then
        let _ ← attempt (Disk.unlink octets)
        attempt change
      else pure first
    | made => pure made
  match made with
  | .ok () => return true
  | .error cause =>
    fail 1 (complaint ++ ": ".toList ++ causeText cause)
    return false

/-- Puts something that is no directory at its target. -/
def putPlain (rule : PutRule) (put : Put) (source : Nat × Node) (isNew : Bool) : Tool Bool := do
  let octets := toOctets put.target
  let w ← get
  if rule.makesLinks then
    let above := ofOctets (withoutLast octets)
    let isHere := (w.disk.lookup (toOctets above)).toOption.any fun found => found.1 = w.disk.cwd
    if put.source.head? ≠ some '/' && !isHere then
      fail 1 (Quoted.name put.target ++
        ": can make relative symbolic links only in current directory".toList)
      return false
    putName rule put (Disk.makeLink (toOctets put.source) octets)
      (aboutBoth "cannot create symbolic link " put.target " to " put.source)
  else if rule.makesNames then
    putName rule put (Disk.giveName source.1 octets)
      (aboutBoth "cannot create hard link " put.target " to " put.source)
  else match source.2 with
    | .link target =>
      putName rule put (Disk.makeLink target octets)
        ("cannot create symbolic link ".toList ++ Quoted.always put.target)
    | _ => putFile rule put source isNew

/-- Looks at what is in the way of something, and says whether to go on, whether the target is new
then, and under which path a file is kept. -/
def clearWay (rule : PutRule) (trail : Trail) (put : Put) (source : Nat × Node)
    (target : Nat × Node) : Tool (Except Bool (Bool × Option Text)) := do
  let disk := (← get).disk
  let isDirectory := source.2.isDirectory
  let stop (text : Text) : Tool (Except Bool (Bool × Option Text)) := do
    fail 1 text
    return .error false
  let (may, isDone) := mayPut rule disk put source target
  let isLazy := rule.overwriting = .skip || rule.overwriting = .refuse
  if !isLazy && !may then
    return ← stop (aboutBoth "" put.source " and " put.target ++ " are the same file".toList)
  if !isDirectory || rule.isMove then
    if rule.overwriting = .refuse then
      return ← stop ("not replacing ".toList ++ Quoted.always put.target)
    if rule.overwriting = .skip then return .error true
    if rule.overwriting = .ask then
      unless ← agrees ("overwrite ".toList ++ Quoted.always put.target) do
        spoil 1
        return .error false
    if rule.overwriting = .older && !isDirectory && disk.timeOf source.1 ≤ disk.timeOf target.1 then
      return .error true
  if isDone then return .error true
  if !target.2.isDirectory then
    if isDirectory && !(rule.isMove && rule.backup.isSome) then
      return ← stop (aboutBoth "cannot overwrite non-directory " put.target " with directory "
        put.source)
    let octets := toOctets put.target
    let isOwn := trail.targets.any fun path => disk.areSameName (toOctets path) octets
    if put.isArgument && isOwn then
      return ← stop (aboutBoth "will not overwrite just-created " put.target " with " put.source)
  else if !isDirectory && !(rule.isMove && rule.backup.isSome) then
    return ← stop ("cannot overwrite directory ".toList ++ Quoted.always put.target ++
      " with non-directory".toList)
  match rule.backup with
  | some backup =>
    if rule.isMove || !target.2.isDirectory then
      let kept := backupPath disk backup put.target
      match ← attempt (Disk.rename (toOctets put.target) (toOctets kept)) with
      | .ok () => return .ok (true, some kept)
      | .error cause => stop (about "cannot backup" put.target cause)
    else return .ok (false, none)
  | none =>
    let isCleared := !rule.isMove && !target.2.isDirectory &&
      (rule.removesFirst || (rule.links = .never && !source.2.isFile))
    if isCleared then
      match ← attempt (Disk.unlink (toOctets put.target)) with
      | .ok () =>
        if rule.isLoud then say ("removed ".toList ++ Quoted.always put.target ++ ['\n'])
        return .ok (true, none)
      | .error cause => stop (about "cannot remove" put.target cause)
    else return .ok (false, none)

def moveName (rule : PutRule) (trail : Trail) (put : Put) (kept : Option Text) :
    Tool (Trail × Bool) := do
  match ← attempt (Disk.rename (toOctets put.source) (toOctets put.target)) with
  | .ok () =>
    sayPut rule "renamed " put kept
    return ({ trail with targets := put.target :: trail.targets }, true)
  | .error .invalidArgument =>
    refused trail (aboutBoth "cannot move " put.topSource " to a subdirectory of itself, "
      put.topTarget)
  | .error cause =>
    if [IoError.alreadyExists, .isADirectory, .notEmpty].any (· == cause) then
      refused trail (about "cannot overwrite" put.target cause)
    else
      refused trail (aboutBoth "cannot move " put.source " to " put.target ++ ": ".toList ++
        causeText cause)

mutual

/-- Puts something at its target, at most so many directories deep, and says whether all went
well. -/
def putOne (rule : PutRule) : Nat → Trail → Put → Tool (Trail × Bool)
  | 0, trail, _ => return (trail, false)
  | depth + 1, trail, put => do
    let follows := rule.links = .always || (rule.links = .arguments && put.isArgument)
    match seenAt follows (← get).disk put.source with
    | .error cause => refused trail (about "cannot stat" put.source cause)
    | .ok source =>
      let isDirectory := source.2.isDirectory
      if isDirectory && !rule.takesTrees && !rule.isMove then
        return ← refused trail ("-r not specified; omitting directory ".toList ++
          Quoted.always put.source)
      let isRepeated (entry : Text × Nat) : Bool := entry.2 = source.1 && entry.1 = put.source
      if put.isArgument && !rule.isMove && !isDirectory && rule.backup.isNone &&
          trail.sources.any isRepeated then
        complain ("warning: source file ".toList ++ Quoted.always put.source ++
          " specified more than once".toList)
        return (trail, true)
      let trail := if put.isArgument then
          { trail with sources := (put.source, source.1) :: trail.sources }
        else trail
      let looksAtLink := rule.isMove || rule.makesLinks || rule.makesNames ||
        rule.backup.isSome || rule.removesFirst || (!source.2.isFile && rule.takesTrees)
      match seenAt (!looksAtLink) (← get).disk put.target with
      | .error .notFound => putOnto rule depth trail put source none none
      | .error cause => refused trail (about "cannot stat" put.target cause)
      | .ok target =>
        match ← clearWay rule trail put source target with
        | .error isWell => return (trail, isWell)
        | .ok (true, kept) => putOnto rule depth trail put source none kept
        | .ok (false, kept) => putOnto rule depth trail put source (some target) kept

def putOnto (rule : PutRule) : Nat → Trail → Put → Nat × Node → Option (Nat × Node) →
    Option Text → Tool (Trail × Bool)
  | 0, trail, _, _, _, _ => return (trail, false)
  | depth + 1, trail, put, source, target, kept => do
    if rule.isMove then return ← moveName rule trail put kept
    let disk := (← get).disk
    let isDirectory := source.2.isDirectory
    unless isDirectory do sayPut rule "" put kept
    match trail.copied.lookup source.1 with
    | some earlier =>
      if !isDirectory then
        let isWell ← putName { rule with isForced := true } put
          (fun disk => match disk.lookupLink (toOctets earlier) with
            | .ok (number, _) => Disk.giveName number (toOctets put.target) disk
            | .error cause => .error cause disk)
          (aboutBoth "cannot create hard link " put.target " to " earlier)
        return (trail, isWell)
      else if disk.areSameName (toOctets put.source) (toOctets earlier) then
        fail 1 (aboutBoth "cannot copy a directory, " put.topSource ", into itself, "
          put.topTarget)
        return ({ trail with isInside := true }, false)
      else if disk.areSameName (toOctets put.target) (toOctets earlier) then
        complain ("warning: source directory ".toList ++ Quoted.always put.topSource ++
          " specified more than once".toList)
        return (trail, true)
      else if rule.links = .always || (rule.links = .arguments && put.isArgument) then
        putTree rule depth trail put source target
      else
        refused trail (aboutBoth "will not create hard link " put.target " to directory " earlier)
    | none =>
      if isDirectory then
        let trail := if put.isArgument then
            { trail with copied := (source.1, put.target) :: trail.copied }
          else trail
        putTree rule depth trail put source target
      else
        let trail := if rule.keepsNames && disk.nameCount source.1 > 1 then
            { trail with copied := (source.1, put.target) :: trail.copied }
          else trail
        let isWell ← putPlain rule put source target.isNone
        return ({ trail with targets := put.target :: trail.targets }, isWell)

def putTree (rule : PutRule) : Nat → Trail → Put → Nat × Node → Option (Nat × Node) →
    Tool (Trail × Bool)
  | 0, trail, _, _, _ => return (trail, false)
  | depth + 1, trail, put, source, target => do
    let octets := toOctets put.target
    let mut trail := trail
    if target.isNone then
      match ← attempt (Disk.makeDirectory octets) with
      | .error cause =>
        return ← refused trail (about "cannot create directory" put.target cause)
      | .ok () =>
        sayPut rule "" put none
        if !trail.hasDirectory then
          if let .ok (number, _) := (← get).disk.lookup octets then
            trail := { trail with copied := (number, put.target) :: trail.copied
                                  hasDirectory := true }
    let names := match (← get).disk.nodes[source.1]? with
      | some node => node.entries.map Prod.fst
      | none => []
    let outcome ← putEach rule depth trail put names
    modify fun w =>
      match w.disk.lookup octets with
      | .ok (number, _) =>
        let old := w.disk.modeOf source.1
        let mode := if rule.keepsMode then old else Mode.without old (w.fileMask ||| Mode.borrowing)
        let disk := if rule.keepsMode || target.isNone then w.disk.setMode number mode else w.disk
        { w with disk := keepTime rule disk source.1 number }
      | .error _ => w
    return outcome

def putEach (rule : PutRule) : Nat → Trail → Put → List Bytes → Tool (Trail × Bool)
  | 0, trail, _, _ => return (trail, false)
  | _, trail, _, [] => return (trail, true)
  | depth + 1, trail, put, name :: rest => do
    let name := ofOctets name
    let inner := { put with
      source := insidePath put.source name, target := insidePath put.target name
      isArgument := false }
    let (trail, isWell) ← putOne rule depth trail inner
    if trail.isInside then return (trail, false)
    let (trail, others) ← putEach rule depth trail put rest
    return (trail, isWell && others)

end

def putAll (rule : PutRule) (placements : Placements) : Tool Unit := do
  let mut trail : Trail := {}
  let isAlone := placements.length < 2
  for (source, target) in placements do
    let disk := (← get).disk
    let depth := 4 * (disk.contents.length + Disk.maxPath)
    let start : Trail :=
      if isAlone then {} else { trail with hasDirectory := false, isInside := false }
    let put : Put :=
      { source, target, topSource := source, topTarget := target, isArgument := true }
    let (after, isWell) ← putOne rule depth start put
    unless isWell do spoil 1
    trail := after

def withoutSlashes (given : Given) : Given :=
  if given.has "strip" then
    { given with words := given.words.map fun word =>
        let short := Text.dropEnd (· == '/') word
        if short.isEmpty then word else short }
  else given

/-- What becomes of a file that is in the way, by the last option that says so. -/
def overwritingOf (given : Given) (refusing : Overwriting) : Overwriting :=
  match given.last? ["f", "i", "n"] with
  | some ['i'] => .ask
  | some ['n'] => refusing
  | _ =>
    match given.value? "u" with
    | some word =>
      match word.head? with
      | some 'a' => .always
      | some 'n' => .skip
      | _ => .older
    | none => .always

/-- Makes the directories that lead to a source, in the target directory. -/
def makeAbove (isLoud : Bool) (directory source : Text) : Tool Unit := do
  let names := (Text.split '/' source).filter (!·.isEmpty)
  for n in List.range (names.length - 1) do
    let inner := Text.join ['/'] (names.take (n + 1))
    let path := insidePath directory inner
    match ← attempt (Disk.makeDirectory (toOctets path)) with
    | .ok () => if isLoud then say (inner ++ " -> ".toList ++ path ++ ['\n'])
    | .error _ => return ()

def cp : Program := do
  let given := withoutSlashes (← givenChecked 1 (.of "abdfHilLnprst:uvxPRS:TZ"
    [("archive", "a"), ("attributes-only", "attributes"), ("backup?", "backup"),
      ("copy-contents", "contents"), ("debug", "debug"), ("dereference", "L"), ("force", "f"),
      ("interactive", "i"), ("link", "l"), ("no-clobber", "n"), ("no-dereference", "P"),
      ("no-preserve=", "drop"), ("no-target-directory", "T"), ("one-file-system", "x"),
      ("parents", "parents"), ("preserve?", "preserve"), ("recursive", "R"),
      ("remove-destination", "remove"), ("sparse=", "sparse"), ("reflink?", "reflink"),
      ("strip-trailing-slashes", "strip"), ("suffix=", "S"), ("symbolic-link", "s"),
      ("target-directory=", "t"), ("update?", "u"), ("verbose", "v"), ("context?", "Z")])
    checkTarget)
  let any (keys : List String) : Bool := keys.any given.has
  if given.has "n" then
    complain ("warning: behavior of -n is non-portable and may change in future; ".toList ++
      "use --update=none instead".toList)
  let takesTrees := any ["r", "R", "a"]
  let links := match given.last? ["L", "H", "P", "a", "d"] with
    | some ['L'] => .always
    | some ['H'] => .arguments
    | some _ => .never
    | none => if takesTrees && !given.has "l" then .never else .always
  if given.has "l" && given.has "s" then
    misuse 1 "cannot make both hard and symbolic links".toList
  let backup ← backupOf given
  let overwriting := overwritingOf given .skip
  let named (kind : String) : Bool := (given.value? "preserve").any fun words =>
    (Text.split ',' words).any fun word => word = "all".toList || word = kind.toList
  let keeps (kind : String) : Bool :=
    any ["a", "p"] || given.value? "preserve" = some [] || named kind
  let rule : PutRule :=
    { takesTrees, links, overwriting, backup, isForced := given.has "f"
      removesFirst := given.has "remove", isLoud := any ["v", "debug"]
      makesNames := given.has "l", makesLinks := given.has "s", keepsMode := keeps "mode"
      keepsTime := keeps "timestamps", keepsNames := any ["a", "d"] || named "links"
      keepsData := given.has "attributes" }
  let placed ← placements given true true
  if given.has "parents" then
    let directory := (given.value? "t").getD (given.words.getLastD [])
    if let .error _ := ← directoryAt directory then
      misuse 1 "with --parents, the destination must be a directory".toList
    for (source, _) in placed do makeAbove rule.isLoud directory source
    putAll rule (placed.map fun (source, _) =>
      (source, insidePath directory (Text.dropEnd (· == '/') (source.dropWhile (· == '/')))))
  else putAll rule placed

def mv : Program := do
  let given := withoutSlashes (← givenChecked 1 (.of "bfint:uvS:TZ"
    [("backup?", "backup"), ("context", "Z"), ("debug", "debug"), ("force", "f"),
      ("interactive", "i"), ("no-clobber", "n"), ("no-copy", "copy"),
      ("no-target-directory", "T"), ("strip-trailing-slashes", "strip"), ("suffix=", "S"),
      ("target-directory=", "t"), ("update?", "u"), ("verbose", "v")])
    checkTarget)
  let backup ← backupOf given
  let placed ← placements given true false
  if backup.isSome && given.has "n" then
    misuse 1 "options --backup and --no-clobber are mutually exclusive".toList
  let rule : PutRule :=
    { isMove := true, links := .never, overwriting := overwritingOf given .refuse, backup
      takesTrees := true, isForced := given.has "f", isLoud := given.has "v" || given.has "debug" }
  putAll rule placed

end FirmwareBuild.Posix.Program
