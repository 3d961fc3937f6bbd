import FirmwareBuild.Posix.Pattern
import FirmwareBuild.Posix.Program.Order
import FirmwareBuild.Posix.Program.Source
import FirmwareBuild.Posix.Program.Target

/-! # Listing directories

A program that prints the names in directories, in an order and a form that can be
chosen: one on each line, in columns, or with commas between them. -/

namespace FirmwareBuild.Posix.Program

open Tool

inductive ListingForm where
  | lines
  /-- With what is known about each file. -/
  | long
  /-- In columns that are read from above. -/
  | columns
  /-- In columns that are read line by line. -/
  | rows
  | commas
  deriving DecidableEq, Repr

inductive ListingOrder where
  | byName
  | bySize
  /-- What was changed last comes first. -/
  | byTime
  | byEnding
  | byVersion
  | unsorted
  deriving DecidableEq, Repr

/-- What is behind names to tell what they are. -/
inductive Indicators where
  | none
  | slashes
  | kinds
  | all
  deriving DecidableEq, Repr

inductive NameStyle where
  | plain
  | hidden
  | quoted
  | escaped
  | shell
  | shellAlways
  deriving DecidableEq, Repr

structure Listing where
  form : ListingForm
  order : ListingOrder
  isReverse : Bool
  indicators : Indicators
  style : NameStyle
  showsAll : Bool
  showsDots : Bool
  skipsBackups : Bool
  directoriesFirst : Bool
  isDeep : Bool
  followsLinks : Bool
  showsOwner : Bool
  showsGroup : Bool
  /-- Owners and groups are shown by their numbers. -/
  isNumeric : Bool
  showsBlocks : Bool
  /-- Sizes are shown with few digits and a letter. -/
  isHuman : Bool
  width : Nat
  tabWidth : Nat
  ending : Char
  /-- Patterns of names that are never shown, and of those that are only shown on demand. -/
  ignored : List Text
  hidden : List Text

structure ListedFile where
  name : Text
  number : Nat
  node : Node
  target : Option Node
  mode : Nat
  time : Time

namespace ListedFile

def isDirectory (file : ListedFile) : Bool :=
  file.node.isDirectory || file.target.any Node.isDirectory

def size (file : ListedFile) : Nat :=
  match file.node with
  | .directory _ _ | .removed _ => 4096
  | .link target => target.length
  | node => node.size

/-- The room that a file takes up, counted in blocks of 1024 octets. -/
def blocks (file : ListedFile) : Nat :=
  match file.node with
  | .link _ => 0
  | _ => (file.size + 4095) / 4096 * 4

def signOf (indicators : Indicators) (node : Node) : Text :=
  if indicators = .none then []
  else match node with
    | .directory _ _ | .removed _ => ['/']
    | .link _ => if indicators = .slashes then [] else ['@']
    | node => if indicators = .all && node.isExecutable then ['*'] else []

def sign (indicators : Indicators) (file : ListedFile) : Text := signOf indicators file.node

end ListedFile

/-- A name with backslashes in front of what cannot be printed and of some characters. -/
def escapedName (special : Text) (name : Text) : Text :=
  name.flatMap fun c =>
    if !isPrintable c then '\\' :: escapeName c
    else if special.contains c then ['\\', c]
    else [c]

namespace Listing

/-- Whether more than the names of files is needed. -/
def looksCloser (listing : Listing) : Bool :=
  listing.form = .long || listing.showsBlocks || listing.order = .bySize ||
    listing.order = .byTime || listing.indicators ≠ .none || listing.isDeep ||
    listing.directoriesFirst

def shownName (listing : Listing) (name : Text) : Text :=
  match listing.style with
  | .plain => name
  | .hidden => name.map fun c => if isPrintable c then c else '?'
  | .quoted => '"' :: escapedName ['"', '\\'] name ++ ['"']
  | .escaped => escapedName [' ', '\\'] name
  | .shell => Quoted.whereNeeded name
  | .shellAlways => Quoted.always name

def shown (listing : Listing) (file : ListedFile) : Text :=
  listing.shownName file.name ++ file.sign listing.indicators

/-- The ending of a name from its last dot on. -/
def endingOf (name : Text) : Text :=
  if name.contains '.' then '.' :: (name.reverse.takeWhile (· ≠ '.')).reverse else []

def compare (listing : Listing) (a b : ListedFile) : Ordering :=
  let byName := LineOrder.plain a.name b.name
  let order := match listing.order with
    | .byName => byName
    | .bySize => (Ord.compare b.size a.size).then byName
    | .byTime => (Ord.compare b.time a.time).then byName
    | .byEnding => (LineOrder.plain (endingOf a.name) (endingOf b.name)).then byName
    | .byVersion => (LineOrder.version a.name b.name).then byName
    | .unsorted => .eq
  let order := if listing.isReverse then order.swap else order
  if listing.directoriesFirst && a.isDirectory != b.isDirectory then
    if a.isDirectory then .lt else .gt
  else order

def sort (listing : Listing) (files : List ListedFile) : List ListedFile :=
  files.mergeSort fun a b => listing.compare a b != .gt

def shows (listing : Listing) (name : Text) : Bool :=
  let matched (pattern : Text) : Bool :=
    (name.head? ≠ some '.' || pattern.head? = some '.') &&
      matchPattern (pattern.map (·, false)) name
  let isHidden := !listing.showsAll && (name.head? = some '.' || listing.hidden.any matched)
  !isHidden && !(listing.ignored.any matched)

/-- Blanks and tabs from one place of a line to another, in at most so many steps. -/
def indent (tabWidth : Nat) : Nat → (place stop : Nat) → Text
  | 0, _, _ => []
  | steps + 1, place, stop =>
    if stop ≤ place then []
    else if tabWidth ≠ 0 && stop / tabWidth > (place + 1) / tabWidth then
      '\t' :: indent tabWidth steps (place + (tabWidth - place % tabWidth)) stop
    else ' ' :: indent tabWidth steps (place + 1) stop

/-- The widths of columns when there are so many, if they fit on a line. -/
def widths? (listing : Listing) (lengths : List Nat) (count : Nat) : Option (List Nat) :=
  let rows := (lengths.length + count - 1) / count
  let columnOf (i : Nat) : Nat := if listing.form = .columns then i / rows else i % count
  let widths := (List.range count).map fun column =>
    (lengths.zipIdx.map fun (length, i) =>
      if columnOf i = column then length + if column + 1 = count then 0 else 2 else 0).foldl max 3
  if Text.total widths < listing.width then some widths else none

def inColumns (listing : Listing) (names : List Text) : Text :=
  let lengths := names.map fun name => name.countP isPrintable
  let most := listing.width / 3 + if listing.width % 3 = 0 then 0 else 1
  let most := if 0 < most && most < names.length then most else names.length
  let found := (List.range (most - 1)).findSome? fun i =>
    (listing.widths? lengths (most - i)).map (most - i, ·)
  let (count, widths) := found.getD (1, [])
  let rows := (names.length + count - 1) / count
  let line (row : Nat) : Text :=
    let picked := (List.range count).filterMap fun column =>
      let i := if listing.form = .columns then column * rows + row else row * count + column
      match names[i]?, lengths[i]? with
      | some name, some length => some (column, name, length)
      | _, _ => none
    let isLast (column : Nat) : Bool := column + 1 = picked.length
    (picked.flatMap fun (column, name, length) =>
      let place := Text.total (widths.take column)
      name ++ if isLast column then []
        else indent listing.tabWidth 1000 (place + length) (place + widths[column]?.getD 0)) ++
      [listing.ending]
  (List.range rows).flatMap line

/-- Names with commas between them, in lines that are not too long. -/
def withCommas (listing : Listing) : (place : Nat) → List Text → Text
  | _, [] => [listing.ending]
  | _, [name] => name ++ [listing.ending]
  | place, name :: next :: rest =>
    let place := place + name.length
    if listing.width = 0 || place + next.length + 2 < listing.width then
      name ++ [',', ' '] ++ withCommas listing (place + 2) (next :: rest)
    else name ++ [',', listing.ending] ++ withCommas listing 0 (next :: rest)

def modeText (file : ListedFile) : Text :=
  let kind := match file.node with
    | .file _ _ | .program _ _ => '-'
    | .directory _ _ | .removed _ => 'd'
    | .link _ => 'l'
    | .device _ => 'c'
  kind :: Mode.letters file.mode

/-- A number of octets with few digits and a letter for its unit, rounded up. -/
def humanSize (octets : Nat) : Text :=
  if octets < 1024 then Text.ofNat octets
  else
    let up (n unit : Nat) : Nat := (n + unit - 1) / unit
    let units := "KMGTPE".toList.zipIdx.map fun (letter, i) => (letter, Nat.pow 1024 (i + 1))
    let unit? := units.find? fun (_, unit) => up octets unit < 1024
    let (letter, unit) := unit?.getD ('E', Nat.pow 1024 6)
    let tenths := up (10 * octets) unit
    (if tenths < 100 then Text.ofNat (tenths / 10) ++ '.' :: Text.ofNat (tenths % 10)
      else Text.ofNat (up octets unit)) ++ [letter]

def sizeText (listing : Listing) (file : ListedFile) : Text :=
  if listing.isHuman then humanSize file.size else Text.ofNat file.size

def blocksText (listing : Listing) (blocks : Nat) : Text :=
  if listing.isHuman then humanSize (1024 * blocks) else Text.ofNat blocks

/-- Texts made as long as the longest of some, with blanks in front. -/
def column (all : List Text) (text : Text) : Text :=
  ({ width := (all.map List.length).foldl max 0 } : Layout).fill text

def blocksPart (listing : Listing) (measured : List ListedFile) (file : ListedFile) : Text :=
  let text (file : ListedFile) : Text := listing.blocksText file.blocks
  if !listing.showsBlocks then []
  else if listing.form = .commas then text file ++ [' ']
  else column (measured.map text) (text file) ++ [' ']

/-- The number of names of a file, where a directory also has one in itself and in each directory
in it. -/
def nameCount (disk : Disk) (number : Nat) (node : Node) : Nat :=
  match node with
  | .directory _ entries =>
    2 + entries.countP fun entry => (disk.nodes[entry.2]?).any Node.isDirectory
  | _ => disk.nameCount number

/-- Lines with what is known about files. What is measured gives the widths of columns. -/
def inDetail (listing : Listing) (disk : Disk) (measured files : List ListedFile) : Text :=
  let owner (isShown : Bool) : Text :=
    if !isShown then [] else if listing.isNumeric then "0 ".toList else "root ".toList
  let namesText (file : ListedFile) : Text := Text.ofNat (nameCount disk file.number file.node)
  let line (file : ListedFile) : Text :=
    listing.blocksPart measured file ++ modeText file ++
      ' ' :: column (measured.map namesText) (namesText file) ++
      ' ' :: owner listing.showsOwner ++ owner listing.showsGroup ++
      column (measured.map listing.sizeText) (listing.sizeText file) ++
      ' ' :: Day.shownTime disk.now file.time ++ ' ' ::
      listing.shownName file.name ++
      (match file.node with
        | .link target => " -> ".toList ++ listing.shownName (ofOctets target) ++
          if listing.indicators = .slashes then []
          else (file.target.map (ListedFile.signOf listing.indicators)).getD []
        | _ => file.sign listing.indicators) ++ [listing.ending]
  files.flatMap line

def render (listing : Listing) (disk : Disk) (measured files : List ListedFile) : Text :=
  let names := files.map fun file => listing.blocksPart measured file ++ listing.shown file
  match listing.form with
  | .long => listing.inDetail disk measured files
  | .lines => names.flatMap (· ++ [listing.ending])
  | .commas => if names.isEmpty then [] else listing.withCommas 0 names
  | .columns | .rows =>
    if names.isEmpty then []
    else if listing.width = 0 then Text.join [' ', ' '] names ++ [listing.ending]
    else listing.inColumns names

/-- The line in front of the files of a directory that tells how much room they take up. -/
def totalLine (listing : Listing) (files : List ListedFile) : Text :=
  if listing.form = .long || listing.showsBlocks then
    "total ".toList ++ listing.blocksText (Text.total (files.map ListedFile.blocks)) ++
      [listing.ending]
  else []

def fileAt? (disk : Disk) (followsLinks : Bool) (path name : Text) : Option ListedFile :=
  let octets := toOctets path
  match disk.lookupLink octets, disk.lookup octets with
  | .ok (number, node), target =>
    let file (number : Nat) (node : Node) : ListedFile :=
      { name, number, node, target := target.toOption.map Prod.snd
        mode := disk.modeOf number, time := disk.timeOf number }
    match node, followsLinks, target with
    | .link _, true, .ok (number, node) => some (file number node)
    | node, _, _ => some (file number node)
  | .error _, _ => none

end Listing

/-- Lists the directories in order, and those in them if that is asked for, at most so many. What
was listed before tells whether a line is left empty in between. -/
def listDirectories (listing : Listing) (hasHeads : Bool) : Nat → (isFirst : Bool) → List Text →
    Tool Unit
  | 0, _, _ => return ()
  | _, _, [] => return ()
  | steps + 1, isFirst, path :: rest => do
    let disk := (← get).disk
    match disk.lookup (toOctets path) with
    | .error cause =>
      fail 1 (about "cannot open directory" path cause)
      listDirectories listing hasHeads steps isFirst rest
    | .ok (_, node) =>
      let names := (node.entries.map fun entry => ofOctets entry.1).filter listing.shows
      let dots := if listing.showsDots then [['.'], ['.', '.']] else []
      let kept := names.filter fun name =>
        !(listing.skipsBackups && name.getLast? = some '~')
      let files := listing.sort ((dots ++ kept).filterMap fun name =>
        Listing.fileAt? disk listing.followsLinks (insidePath path name) name)
      if listing.followsLinks && listing.looksCloser then
        for name in kept do
          if let .error cause := disk.lookup (toOctets (insidePath path name)) then
            let shown := if path = ['.'] then name else insidePath path name
            fail 1 (about "cannot access" shown cause)
      let head := if hasHeads then
          (if isFirst then [] else ['\n']) ++ listing.shownName path ++ [':', '\n']
        else []
      say (head ++ listing.totalLine files ++ listing.render disk files files)
      let below := if listing.isDeep then
          (files.filter fun file => file.node.isDirectory && !dots.contains file.name).map
            fun file => insidePath path file.name
        else []
      listDirectories listing hasHeads steps false (below ++ rest)

/-- What the word of an option may be, for options that are one of a few words. -/
def listingWords : List (String × String × List String) :=
  [("style", "--quoting-style", ["literal", "shell", "shell-always", "shell-escape",
      "shell-escape-always", "c", "c-maybe", "escape", "locale", "clocale"]),
    ("format", "--format", ["verbose long", "commas", "horizontal across", "vertical",
      "single-column"]),
    ("sort", "--sort", ["none", "time", "size", "extension", "version", "width", "name"]),
    ("indicator", "--indicator-style", ["none", "slash", "file-type", "classify"]),
    ("color", "--color", whenWords), ("F", "--classify", whenWords),
    ("link", "--hyperlink", whenWords),
    ("time", "--time", ["atime access use", "ctime status", "mtime modification",
      "birth creation"])]
where
  whenWords : List String := ["always yes force", "never no none", "auto tty if-tty"]

def listingWord (key value : Text) : Tool Text := do
  match listingWords.find? fun entry => entry.1.toList = key with
  | some (_, option, choices) =>
    if value.isEmpty && ["color", "F", "link"].any (String.toList · = key) then
      return "always".toList
    oneOf option choices value
  | none => return []

def listingNumber (what : String) (text : Text) : Tool Nat := do
  match Numeral.ofDigits? 10 text with
  | some n => return n
  | none => giveUp 2 (what.toList ++ ": ".toList ++ Quoted.escaped text)

def checkListing (_ : List (Text × Text)) (key value : Text) : Tool Unit := do
  let _ ← listingWord key value
  if key = ['w'] then
    let _ ← listingNumber "invalid line width" value
  if key = ['T'] then
    let _ ← listingNumber "invalid tab size" value

def nameStyle (given : Given) : Tool NameStyle := do
  let isHidden := given.last? ["q", "controls", "zero"] = some ['q']
  let usual : NameStyle := if isHidden then .hidden else .plain
  match given.last? ["Q", "b", "N", "zero", "style"] with
  | some ['Q'] => return .quoted
  | some ['b'] => return .escaped
  | none => return usual
  | some key =>
    if key ≠ "style".toList then return usual
    match String.ofList (← listingWord "style".toList ((given.value? "style").getD [])) with
    | "shell" | "shell-escape" => return .shell
    | "shell-always" | "shell-escape-always" | "locale" | "clocale" => return .shellAlways
    | "c" => return .quoted
    | "escape" => return .escaped
    | _ => return usual

def formAfter (form : ListingForm) (key word : Text) : ListingForm :=
  let unlessLong : ListingForm := if form = .long then .long else .lines
  match String.ofList key, String.ofList word with
  | "C", _ | "format", "vertical" => .columns
  | "x", _ | "format", "horizontal" => .rows
  | "m", _ | "format", "commas" => .commas
  | "l", _ | "n", _ | "g", _ | "o", _ | "format", "verbose" => .long
  | "format", _ => .lines
  | "1", _ | "zero", _ => unlessLong
  | "f", _ => if form = .long then .lines else form
  | _, _ => form

/-- Prints the names in directories, in order, or names that are there: what is missing first, then
what is no directory, then the directories. -/
def ls : Program := do
  let table := OptionTable.of "abcdfghiklmnopqrstuvw:xABCDFGHI:LNQRST:UXZ1" [("all", "a"),
    ("escape", "b"), ("directory", "d"), ("dired", "D"), ("full-time", "l"),
    ("group-directories-first", "first"), ("human-readable", "h"), ("inode", "i"),
    ("kibibytes", "k"), ("numeric-uid-gid", "n"), ("no-group", "G"),
    ("hide-control-chars", "q"), ("reverse", "r"), ("size", "s"), ("width=", "w"),
    ("almost-all", "A"), ("ignore-backups", "B"), ("classify?", "F"), ("file-type", "kind"),
    ("si", "h"), ("dereference-command-line", "H"),
    ("dereference-command-line-symlink-to-dir", "args"), ("hide=", "hide"), ("ignore=", "I"),
    ("indicator-style=", "indicator"), ("dereference", "L"), ("literal", "N"),
    ("quote-name", "Q"), ("quoting-style=", "style"), ("recursive", "R"), ("format=", "format"),
    ("show-control-chars", "controls"), ("sort=", "sort"), ("tabsize=", "T"), ("time=", "time"),
    ("time-style=", "times"), ("zero", "zero"), ("color?", "color"), ("hyperlink?", "link"),
    ("block-size=", "block"), ("context", "Z"), ("author", "author")]
  let given ← givenChecked 2 table checkListing
  let any (keys : List String) : Bool := keys.any given.has
  let word (key : String) : Tool Text := do
    match given.value? key with
    | some value => listingWord key.toList value
    | none => return []
  let columns := (← namedValue? "COLUMNS").bind (Numeral.ofDigits? 10)
  let width ← match given.value? "w" with
    | some text => listingNumber "invalid line width" text
    | none => pure (columns.getD 80)
  let tabWidth ← match given.value? "T" with
    | some text => listingNumber "invalid tab size" text
    | none => pure 8
  let mut form : ListingForm := .lines
  for (key, value) in given.options do form := formAfter form key (← listingWord key value)
  let sortWord ← word "sort"
  let order : ListingOrder := match given.last? ["S", "X", "v", "U", "f", "t", "sort"] with
    | some ['S'] => .bySize
    | some ['X'] => .byEnding
    | some ['v'] => .byVersion
    | some ['U'] | some ['f'] => .unsorted
    | some ['t'] => .byTime
    | none => .byName
    | some _ => match String.ofList sortWord with
      | "size" => .bySize
      | "time" => .byTime
      | "extension" => .byEnding
      | "version" => .byVersion
      | "none" => .unsorted
      | _ => .byName
  let indicatorWord ← word "indicator"
  let classifiesWhen ← word "F"
  let indicators : Indicators := match given.last? ["F", "p", "kind", "indicator"] with
    | some ['F'] => if classifiesWhen = "always".toList then .all else .none
    | some ['p'] => .slashes
    | none => .none
    | some key =>
      if key = "kind".toList then .kinds
      else match String.ofList indicatorWord with
        | "slash" => .slashes
        | "file-type" => .kinds
        | "classify" => .all
        | _ => .none
  let showsDots := any ["a", "f"] && given.last? ["a", "A", "f"] ≠ some ['A']
  let valuesOf (key : String) : List Text :=
    (given.options.filter fun entry => entry.1 = key.toList).map Prod.snd
  let listing : Listing :=
    { form, order, isReverse := given.has "r", indicators, style := ← nameStyle given
      showsAll := any ["a", "A", "f"], showsDots, skipsBackups := given.has "B"
      directoriesFirst := given.has "first", isDeep := given.has "R", followsLinks := given.has "L"
      showsOwner := !given.has "g", showsGroup := !any ["o", "G"], isNumeric := given.has "n"
      showsBlocks := given.has "s", isHuman := given.has "h"
      width, tabWidth, ending := if given.has "zero" then '\x00' else '\n'
      ignored := valuesOf "I", hidden := valuesOf "hide" }
  let disk := (← get).disk
  let opens := !given.has "d"
  let followsArguments := any ["H", "L", "args"]
  let followsToDirectory := followsArguments ||
    !(given.has "d" || indicators = .all || form = .long)
  let mut plain : List ListedFile := []
  let mut directories : List ListedFile := []
  for path in (if given.words.isEmpty then [['.']] else given.words) do
    match disk.look followsArguments (toOctets path) with
    | .error cause => fail 2 (about "cannot access" path cause)
    | .ok _ =>
      if let some file := Listing.fileAt? disk followsArguments path path then
        let isOpened := opens &&
          (file.node.isDirectory || (followsToDirectory && file.target.any Node.isDirectory))
        if isOpened then directories := directories ++ [file] else plain := plain ++ [file]
  unless plain.isEmpty do say (listing.render disk (plain ++ directories) (listing.sort plain))
  let hasHeads := listing.isDeep || given.words.length > 1 || !plain.isEmpty
  let names := (listing.sort directories).map ListedFile.name
  listDirectories listing hasHeads (disk.contents.length + names.length + 1) plain.isEmpty names

end FirmwareBuild.Posix.Program
