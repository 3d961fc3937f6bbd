import FirmwareBuild.Disk.Naming
import FirmwareBuild.Posix.Program.Date
import FirmwareBuild.Posix.Program.Mode
import FirmwareBuild.Posix.Program.Printing
import FirmwareBuild.Posix.Program.Source

/-! # Programs that make and remove files

Programs that make directories, empty files and links, remove them, and change who
may execute a file. What goes wrong with one of their arguments is complained of,
and the others are worked on all the same. -/

namespace FirmwareBuild.Posix.Program

open Tool

/-! ## Directories -/

/-- The starts of a path that end behind one of its names, the shortest first. -/
def startsOf (path : Text) : List Text :=
  (List.range path.length).filterMap fun i =>
    let start := path.take (i + 1)
    if start.getLast? ≠ some '/' ∧ (path[i + 1]?).all (· == '/') then some start else none

/-- The mode of a new directory: what the mask leaves, and what a directory passes on. -/
def newDirectoryMode (w : Work) (path : Text) (mode : Nat) : Nat :=
  let inherited := match w.disk.locate false (toOctets path) with
    | .ok place => w.disk.modeOf place.directory &&& 0x400
    | .error _ => 0
  Mode.without mode w.fileMask ||| inherited

def makeOne (isLoud : Bool) (mode? : Option (List Mode.Change)) (path : Text) :
    Tool (Except IoError Unit) := do
  let w ← get
  let mode := newDirectoryMode w path Mode.everything
  let mode := match mode? with
    | some changes => (mode &&& 0x400) ||| Mode.after changes true w.fileMask Mode.everything
    | none => mode
  let made ← attempt (Disk.makeDirectory (toOctets path))
  if made.toOption.isSome then
    if let .ok (number, _) := (← get).disk.lookup (toOctets path) then
      modify fun w => { w with disk := w.disk.setMode number mode }
  if isLoud && made.toOption.isSome then
    say ((← get).name ++ ": created directory ".toList ++ Quoted.always path ++ ['\n'])
  return made

/-- Makes directories one in the other. All but the last have to be there afterwards. -/
def makeAll (isLoud : Bool) (mode? : Option (List Mode.Change)) : List Text → Tool Unit
  | [] => return ()
  | path :: rest => do
    let made ← makeOne isLoud (if rest.isEmpty then mode? else none) path
    let there := (← node? path).map Node.isDirectory
    let failed (cause : IoError) : Tool Unit :=
      fail 1 (about "cannot create directory" path cause)
    match made, there, rest with
    | .ok (), _, rest | .error _, some true, rest => makeAll isLoud mode? rest
    | .error .alreadyExists, some false, _ :: _ => failed .notADirectory
    | .error cause, _, _ => failed cause

def mkdir : Program := do
  let given ← given 1 (.of "pm:vZ" [("parents", "p"), ("mode=", "m"), ("verbose", "v"),
    ("context?", "Z")])
  if given.words.isEmpty then tooFew 1
  let mode? := (given.value? "m").bind Mode.read?
  if let some mode := given.value? "m" then
    if mode?.isNone then giveUp 1 ("invalid mode ".toList ++ Quoted.escaped mode)
  let isLoud := given.has "v"
  for path in given.words do
    let starts := startsOf path
    if given.has "p" && !starts.isEmpty then makeAll isLoud mode? (starts.dropLast ++ [path])
    else match ← makeOne isLoud mode? path with
      | .ok () => pure ()
      | .error cause =>
        unless given.has "p" && (← node? path).any Node.isDirectory do
          fail 1 (about "cannot create directory" path cause)

/-- Removes the directories above one that was removed, as long as they are empty. -/
def removeAbove (isLoud isLenient : Bool) : Nat → Text → Tool Unit
  | 0, _ => return ()
  | steps + 1, path => do
    let path := Text.dropEnd (· == '/') path
    if path.contains '/' then
      let above := Text.dropEnd (· == '/') (Text.dropEnd (· != '/') path)
      unless above.isEmpty do
        if isLoud then
          say ((← get).name ++ ": removing directory, ".toList ++ Quoted.always above ++ ['\n'])
        match ← attempt (Disk.removeDirectory (toOctets above)) with
        | .ok () => removeAbove isLoud isLenient steps above
        | .error cause =>
          unless isLenient && cause = .notEmpty do
            fail 1 (about "failed to remove directory" above cause)

def rmdir : Program := do
  let given ← given 1 (.of "pv" [("parents", "p"), ("verbose", "v"),
    ("ignore-fail-on-non-empty", "ignore")])
  if given.words.isEmpty then tooFew 1
  let isLoud := given.has "v"
  let isLenient := given.has "ignore"
  for path in given.words do
    if isLoud then
      say ((← get).name ++ ": removing directory, ".toList ++ Quoted.always path ++ ['\n'])
    match ← attempt (Disk.removeDirectory (toOctets path)) with
    | .ok () => if given.has "p" then removeAbove isLoud isLenient path.length path
    | .error cause =>
      unless isLenient && (cause = .notEmpty || cause = .busy) do
        let isLink := path.getLast? = some '/' && cause = .notADirectory &&
          (← node? path).any Node.isDirectory
        if isLink then
          fail 1 ("failed to remove ".toList ++ Quoted.always path ++
            ": Symbolic link not followed".toList)
        else fail 1 (about "failed to remove" path cause)

/-! ## Files -/

/-- Whether a text can tell a date: it has a digit, or a word for a day. Numbers with hyphens or
colons would have been understood. -/
def isDate (text : Text) : Bool :=
  let isNumbers (sign : Char) (word : Text) : Bool :=
    word.contains sign && word.all fun c => c.isDigit || c == sign
  text.all isPrintable &&
    !((Text.split ' ' text).any fun word => isNumbers '-' word || isNumbers ':' word) &&
    (text.any Char.isDigit ||
      ["now", "today", "yesterday", "tomorrow"].any fun word => Text.holds word.toList text)

/-- The time that an option for a date tells. What is not understood counts as the present. -/
def dateOf (now : Time) (text : Text) : Tool Time := do
  match readDate? now text with
  | some time => return time
  | none =>
    unless isDate text do giveUp 1 ("invalid date format ".toList ++ Quoted.escaped text)
    return now

def timeOption (given : Given) : Tool (Option Time) := do
  let disk := (← get).disk
  let stamp? := (given.value? "t").bind (readStamp? disk.now)
  if stamp?.isSome && (given.has "r" || given.has "d") then
    misuse 1 "cannot specify times from more than one source".toList
  let model? ← match given.value? "r" with
    | some model =>
      match disk.look (!given.has "h") (toOctets model) with
      | .ok (number, _) => pure (some (disk.timeOf number))
      | .error cause => giveUp 1 (about "failed to get attributes of" model cause)
    | none => pure none
  match given.value? "d" with
  | some date => return some (← dateOf (model?.getD disk.now) date)
  | none => return stamp?.or model?

def checkTimes (_ : List (Text × Text)) (key value : Text) : Tool Unit := do
  if key = "time".toList then
    let _ ← oneOf "--time" ["atime access use", "mtime modify"] value
  if key = ['t'] && (readStamp? (← get).disk.now value).isNone then
    giveUp 1 ("invalid date format ".toList ++ Quoted.escaped value)

def touch : Program := do
  let table := OptionTable.of "acd:fhmr:t:" [("time=", "time"), ("no-create", "c"), ("date=", "d"),
    ("reference=", "r"), ("no-dereference", "h")]
  let given ← givenChecked 1 table checkTimes
  let time? ← timeOption given
  if given.words.isEmpty then misuse 1 "missing file operand".toList
  let changes := given.has "m" || !(given.has "a" || given.has "time") ||
    ((given.value? "time").any fun word => word.head? = some 'm')
  for path in given.words do
    if path = ['-'] then
      let w ← get
      if !w.isOutputOpen then fail 1 (about "setting times of" path .badStream)
      else if let (true, some (number, _)) := (changes, w.outputFile) then
        set { w with disk := w.disk.setTime number (time?.getD w.disk.now) }
    else
      let octets := toOctets path
      let keeps := given.has "c" || given.has "h"
      let mode := Mode.without 0x1B6 (← get).fileMask
      let opened ← if keeps then pure (.ok 0) else attempt (Disk.openFile octets mode)
      let disk := (← get).disk
      match opened, disk.look (!given.has "h") octets with
      | _, .ok (number, _) =>
        if changes then
          modify fun w => { w with disk := disk.setTime number (time?.getD disk.now) }
      | .error .isADirectory, .error cause | .ok _, .error cause =>
        unless given.has "c" && cause = .notFound do fail 1 (about "setting times of" path cause)
      | .error cause, _ => fail 1 (about "cannot touch" path cause)

structure Removal where
  isForced : Bool
  asks : Bool
  isLoud : Bool
  takesTrees : Bool
  takesEmpty : Bool

/-- Reads a line of the input and says whether it agrees to what is asked. -/
def agrees (question : Text) : Tool Bool := do
  mutter ((← get).name ++ ": ".toList ++ question ++ "? ".toList)
  let w ← get
  let text := w.inputNow.toOption.getD []
  let line := text.takeWhile (· ≠ '\n')
  set (w.afterInput (text.drop (line.length + 1)) (min text.length (line.length + 1)))
  return ['y', 'Y'].any fun c => line.head? = some c

def kindOf : Node → String
  | .file [] _ => "regular empty file"
  | .file _ _ | .program _ _ => "regular file"
  | .directory _ _ | .removed _ => "directory"
  | .link _ => "symbolic link"
  | .device _ => "character special file"

mutual

/-- Removes what a path names, at most so many directories deep, and says whether it is gone. -/
def removeOne (removal : Removal) : Nat → Text → Tool Bool
  | 0, _ => return false
  | depth + 1, path => do
    let octets := toOctets path
    let failed (cause : IoError) : Tool Bool := do
      fail 1 (about "cannot remove" path cause)
      return false
    let gone (what : String) (change : Disk.Change Unit) : Tool Bool := do
      match ← attempt change with
      | .ok () =>
        if removal.isLoud then say (what.toList ++ Quoted.always path ++ ['\n'])
        return true
      | .error cause => failed cause
    match (← get).disk.lookupLink octets with
    | .error cause =>
      if removal.isForced && (cause = .notFound || cause = .notADirectory) then return true
      failed cause
    | .ok (_, node) =>
      let ask (what : String) : Tool Bool :=
        if removal.asks then agrees (what.toList ++ ' ' :: Quoted.always path) else return true
      if !node.isDirectory then
        if ← ask ("remove " ++ kindOf node) then gone "removed " (Disk.unlink octets)
        else return false
      else if removal.takesTrees then
        unless node.entries.isEmpty do
          unless ← ask "descend into directory" do return false
          unless ← removeEach removal depth path (node.entries.map Prod.fst) do return false
        if ← ask "remove directory" then gone "removed directory " (Disk.removeDirectory octets)
        else return false
      else if removal.takesEmpty then
        if ← ask "remove directory" then gone "removed directory " (Disk.removeDirectory octets)
        else return false
      else failed .isADirectory

def removeEach (removal : Removal) : Nat → Text → List Bytes → Tool Bool
  | 0, _, _ => return false
  | _, _, [] => return true
  | depth + 1, path, name :: rest => do
    let gone ← removeOne removal depth (path ++ '/' :: ofOctets name)
    return (← removeEach removal depth path rest) && gone

end

def checkRemoval (_ : List (Text × Text)) (key value : Text) : Tool Unit := do
  if key = "interactive".toList && !value.isEmpty then
    let _ ← oneOf "--interactive" ["never no none", "once", "always yes"] value

def rm : Program := do
  let table := OptionTable.of "dfirvIR" [("force", "f"), ("interactive?", "interactive"),
    ("one-file-system", "one"), ("no-preserve-root", "root"), ("preserve-root?", "keep"),
    ("recursive", "r"), ("dir", "d"), ("verbose", "v")]
  let given ← givenChecked 1 table checkRemoval
  let last := given.last? ["f", "i", "I", "interactive"]
  let interaction := (given.value? "interactive").bind List.head?
  let isForced := last = some ['f']
  let removal : Removal :=
    { isForced, isLoud := given.has "v", takesTrees := given.has "r" || given.has "R"
      takesEmpty := given.has "d"
      asks := last = some ['i'] || (last = some "interactive".toList &&
        interaction.all fun c => ['y', 'a'].contains c) }
  if given.words.isEmpty then if isForced then quit 0 else tooFew 1
  let asksOnce := last = some ['I'] || (last = some "interactive".toList && interaction = some 'o')
  if asksOnce && (removal.takesTrees || given.words.length > 3) then
    let count := given.words.length
    unless ← agrees ("remove ".toList ++ Text.ofNat count ++ " argument".toList ++
        (if count = 1 then [] else ['s']) ++
        (if removal.takesTrees then " recursively".toList else [])) do quit 0
  for path in given.words do
    let name := ((Text.split '/' path).filter (!·.isEmpty)).getLastD []
    if removal.takesTrees && (name = ['.'] || name = ['.', '.']) then
      fail 1 ("refusing to remove '.' or '..' directory: skipping ".toList ++ Quoted.always path)
    else if removal.takesTrees && !path.isEmpty && path.all (· == '/') then
      fail 1 "it is dangerous to operate recursively on '/'".toList
      complain "use --no-preserve-root to override this failsafe".toList
    else
      let disk := (← get).disk
      let _ ← removeOne removal (2 * (disk.contents.length + Disk.maxPath)) path

def unlink : Program := do
  let given ← given 1 (.of "" [])
  match given.words with
  | [] => tooFew 1
  | [path] =>
    let _ ← doing "cannot unlink" path (Disk.unlink (toOctets path))
  | _ :: word :: _ => tooMany 1 word

def link : Program := do
  let given ← given 1 (.of "" [])
  match given.words with
  | [] => tooFew 1
  | [path] => misuse 1 ("missing operand after ".toList ++ Quoted.escaped path)
  | [source, path] =>
    let failed (cause : IoError) : Tool Unit :=
      fail 1 ("cannot create link ".toList ++ Quoted.always path ++ " to ".toList ++
        Quoted.always source ++ ": ".toList ++ causeText cause)
    match (← get).disk.lookupLink (toOctets source) with
    | .error cause => failed cause
    | .ok (number, _) =>
      if let .error cause := ← attempt (Disk.giveName number (toOctets path)) then failed cause
  | _ :: _ :: word :: _ => tooMany 1 word

/-! ## Modes -/

structure ModeRule where
  changes : List Mode.Change
  isDeep : Bool
  /-- Every file is told of, or only those whose mode changes. -/
  isLoud : Option Bool
  isSilent : Bool
  /-- It is complained of if the mask keeps a change from being made. -/
  isWary : Bool

def shownMode (mode : Nat) : Text := Mode.digits mode ++ " (".toList ++ Mode.letters mode ++ [')']

def changeMode (rule : ModeRule) (path : Text) (number : Nat) (node : Node) : Tool Unit := do
  let w ← get
  let old := w.disk.modeOf number
  let after (mask : Nat) : Nat := Mode.after rule.changes node.isDirectory mask old
  let new := after w.fileMask
  set { w with disk := w.disk.setMode number new }
  if new ≠ old then
    if rule.isLoud.isSome then
      say ("mode of ".toList ++ Quoted.always path ++ " changed from ".toList ++ shownMode old ++
        " to ".toList ++ shownMode new ++ ['\n'])
  else if rule.isLoud = some true then
    say ("mode of ".toList ++ Quoted.always path ++ " retained as ".toList ++ shownMode old ++
      ['\n'])
  if rule.isWary && Mode.without new (after 0) ≠ 0 then
    fail 1 (Quoted.name path ++ ": new permissions are ".toList ++ Mode.letters new ++
      ", not ".toList ++ Mode.letters (after 0))

/-- Changes the modes of what a path leads to and, if that is asked for, of all that is in a
directory. Links in a directory are left alone. -/
def changeModes (rule : ModeRule) (isArgument : Bool) : Nat → Text → Tool Unit
  | 0, _ => return ()
  | depth + 1, path => do
    let disk := (← get).disk
    let lacking (complaint : Text) : Tool Unit := do
      if rule.isSilent then spoil 1 else fail 1 complaint
      if rule.isLoud = some true then
        say (Quoted.always path ++ " could not be accessed\n".toList)
    match disk.look isArgument (toOctets path), disk.lookupLink (toOctets path) with
    | .error .notFound, .ok (_, .link _) =>
      lacking ("cannot operate on dangling symlink ".toList ++ Quoted.always path)
    | .error cause, _ => lacking (about "cannot access" path cause)
    | .ok (_, .link _), _ =>
      if rule.isLoud = some true then
        say ("neither symbolic link ".toList ++ Quoted.always path ++
          " nor referent has been changed\n".toList)
    | .ok (number, node), _ =>
      changeMode rule path number node
      if rule.isDeep then
        for (name, _) in node.entries do
          let inside := if path.getLast? = some '/' then path else path ++ ['/']
          changeModes rule false depth (inside ++ ofOctets name)

def refuseRoot (path : Text) : Tool Unit := do
  let also := if path = ['/'] then [] else " (same as '/')".toList
  fail 1 ("it is dangerous to operate recursively on ".toList ++ Quoted.always path ++ also)
  complain "use --no-preserve-root to override this failsafe".toList

/-- The letters that begin a mode although they look like options. -/
def modeLetters : List Char := "rwxXstugoa,+=01234567".toList

def chmod : Program := do
  let letters := "Rcfv" ++ String.ofList (modeLetters.flatMap fun c => [c, '?'])
  let given ← given 1 (.of letters [("changes", "c"), ("recursive", "R"),
    ("silent", "f"), ("quiet", "f"), ("verbose", "v"), ("reference=", "reference"),
    ("preserve-root", "keep"), ("no-preserve-root", "root")])
  let pieces := given.options.filterMap fun (key, value) =>
    if key.any modeLetters.contains && key.length = 1 then some ('-' :: key ++ value) else none
  let model? := given.value? "reference"
  if model?.isSome && !pieces.isEmpty then
    misuse 1 "cannot combine mode and --reference options".toList
  let mode? := if pieces.isEmpty then given.words.head? else some (Text.join [','] pieces)
  let usesWord := pieces.isEmpty && model?.isNone
  let paths := if usesWord then given.words.tail else given.words
  if paths.isEmpty then
    match given.words with
    | [mode] => if usesWord then misuse 1 ("missing operand after ".toList ++ Quoted.escaped mode)
    | _ => misuse 1 "missing operand".toList
  let disk := (← get).disk
  let changes ← match model?, mode? with
    | some model, _ =>
      match disk.lookup (toOctets model) with
      | .ok (number, _) => pure [({ operation := .assign, rights := .these (disk.modeOf number)
                                    users := some Mode.complete, told := Mode.complete } :
                                    Mode.Change)]
      | .error cause => giveUp 1 (about "failed to get attributes of" model cause)
    | none, some mode =>
      match Mode.read? mode with
      | some changes => pure changes
      | none => misuse 1 ("invalid mode: ".toList ++ Quoted.escaped mode)
    | none, none => misuse 1 "missing operand".toList
  let rule : ModeRule :=
    { changes, isDeep := given.has "R", isSilent := given.has "f", isWary := !pieces.isEmpty
      isLoud := match given.last? ["c", "v"] with
        | some ['v'] => some true
        | some _ => some false
        | none => none }
  let keepsRoot := given.last? ["keep", "root"] = some "keep".toList
  for path in paths do
    let isRoot := match disk.lookup (toOctets path) with
      | .ok (number, _) => number = Disk.root
      | .error _ => false
    if isRoot && rule.isDeep && keepsRoot then refuseRoot path
    else changeModes rule true (disk.nodes.size + 1) path

end FirmwareBuild.Posix.Program
