import FirmwareBuild.Posix.Program.Reading
import FirmwareBuild.Posix.Program.Target
import FirmwareBuild.Posix.Regex

/-! # Searching lines

A program that prints the lines of its sources in which one of some expressions is
found, or those in which none is. It can print parts of lines, lines around, numbers
or only names, and goes through directories if that is asked for. -/

namespace FirmwareBuild.Posix.Program

open Tool

/-- What a found part of a line has to fill. -/
inductive Extent where
  | anywhere
  | words
  | lines
  deriving DecidableEq, Repr

structure Search where
  expressions : List Regex
  ignoresCase : Bool
  extent : Extent
  /-- The lines without it are meant. -/
  isInverted : Bool

namespace Search

def subject (search : Search) (line : Text) : Regex.Subject :=
  { line := line.toArray, ignoresCase := search.ignoresCase }

def endAt? (search : Search) (subject : Regex.Subject) (start : Nat) : Option Nat :=
  let fits (stop : Nat) : Bool :=
    match search.extent with
    | .anywhere => true
    | .words => !subject.isWordBefore start && !subject.isWordAt stop
    | .lines => start == 0 && stop == subject.line.size
  ((search.expressions.flatMap fun regex => regex.endsFrom subject start).filter fits).max?

/-- The first part of a line that is found from a place on, in at most so many steps. -/
def next? (search : Search) (subject : Regex.Subject) : Nat → Nat → Option (Nat × Nat)
  | 0, _ => none
  | steps + 1, start =>
    if subject.line.size < start then none
    else match search.endAt? subject start with
      | some stop => some (start, stop)
      | none => next? search subject steps (start + 1)

/-- All parts of a line that are found and not empty, in at most so many steps. -/
def parts (search : Search) (subject : Regex.Subject) : Nat → Nat → List (Nat × Nat)
  | 0, _ => []
  | steps + 1, start =>
    match search.next? subject (subject.line.size + 2) start with
    | none => []
    | some (first, stop) =>
      if first < stop then (first, stop) :: parts search subject steps stop
      else parts search subject steps (first + 1)

def selects (search : Search) (line : Text) : Bool :=
  let subject := search.subject line
  (search.next? subject (line.length + 2) 0).isSome != search.isInverted

end Search

inductive Finding where
  | lines
  | parts
  | count
  /-- The names of sources with such a line, or without one. -/
  | names (hasLine : Bool)
  | nothing
  deriving DecidableEq, Repr

structure FindingForm where
  finding : Finding
  hasName : Bool
  hasNumber : Bool
  hasOffset : Bool
  /-- The character behind names is a zero octet. -/
  endsNames : Bool
  /-- The number of lines around that are shown. -/
  before : Option Nat
  after : Option Nat
  /-- The number of lines that are meant at most. -/
  most : Option Nat
  showsBinary : Bool
  isQuiet : Bool
  ending : Char

namespace FindingForm

def heading (form : FindingForm) (name : Text) (number offset : Nat) (sign : Char) : Text :=
  (if form.hasName then name ++ [if form.endsNames then '\x00' else sign] else []) ++
    (if form.hasNumber then Text.ofNat number ++ [sign] else []) ++
    (if form.hasOffset then Text.ofNat offset ++ [sign] else [])

def lineText (form : FindingForm) (search : Search) (name : Text) (number offset : Nat)
    (line : Text) : Text :=
  match form.finding with
  | .parts =>
    if search.isInverted then []
    else
      (search.parts (search.subject line) (line.length + 1) 0).flatMap fun (start, stop) =>
        form.heading name number (offset + start) ':' ++ (line.drop start).take (stop - start) ++
          [form.ending]
  | _ => form.heading name number offset ':' ++ line ++ [form.ending]

end FindingForm

/-- A line with its number, the octets in front of it, and whether it is meant. -/
structure SearchedLine where
  line : Text
  number : Nat
  offset : Nat
  isMeant : Bool

structure Printed where
  /-- What was printed, the latest first. -/
  output : List Text := []
  /-- Lines in front that may still be printed, the latest first. -/
  waiting : List SearchedLine := []
  /-- The number of lines behind that are still printed. -/
  owed : Nat := 0
  found : Nat := 0
  /-- Lines were passed over since the latest output. -/
  hasGap : Bool := true
  /-- Something was printed before, perhaps of another source. -/
  hasOutput : Bool

def Printed.add (form : FindingForm) (search : Search) (name : Text) (state : Printed)
    (line : SearchedLine) : Printed :=
  let isFull := form.most.any (· ≤ state.found)
  let around (line : SearchedLine) : Text :=
    if form.finding = .parts then []
    else form.heading name line.number line.offset '-' ++ line.line ++ [form.ending]
  if line.isMeant && !isFull then
    let isGrouped := form.before.isSome || form.after.isSome
    let gap := if isGrouped && state.hasOutput && state.hasGap then ["--\n".toList] else []
    let text := form.lineText search name line.number line.offset line.line
    { output := text :: (state.waiting.map around ++ gap ++ state.output)
      owed := form.after.getD 0, found := state.found + 1, hasGap := false, hasOutput := true }
  else if state.owed > 0 then
    { state with output := around line :: state.output, owed := state.owed - 1 }
  else
    let kept := form.before.getD 0
    { state with
      owed := 0, waiting := (line :: state.waiting).take kept
      hasGap := state.hasGap || state.waiting.length ≥ kept }

def searchedLines (form : FindingForm) (search : Search) (text : Text) : List SearchedLine :=
  let lines := linesOf form.ending text
  let (done, _, _) := lines.foldl (fun (done, number, offset) line =>
    ({ line, number, offset, isMeant := search.selects line } :: done, number + 1,
      offset + line.length + 1)) (([] : List SearchedLine), 1, 0)
  done.reverse

/-- Searches one source and prints what was found. Whether something was is given. -/
def searchSource (form : FindingForm) (search : Search) (hasOutput : Bool) (name path : Text) :
    Tool (Option Bool) := do
  let limit := match form.finding with
    | .nothing | .names _ => some 1
    | _ => form.most
  let enough (text : Text) : Option Nat := limit.bind fun n =>
    let lines := searchedLines form search text
    let last? := (lines.filter SearchedLine.isMeant)[n - 1]?
    let behind := if form.finding = .lines then form.after.getD 0 else 0
    last?.bind fun last =>
      let shown := lines.filter fun line => line.number ≤ last.number + behind
      shown.getLast?.map fun line => line.offset + line.line.length + 1
  let isOwn := (form.finding = .lines || form.finding = .parts) && form.most ≠ some 1 &&
    readsOutputFile (← get) path
  if isOwn then
    fail 2 (name ++ ": input file is also the output".toList)
    return none
  match ← startOf 32768 enough path with
  | .error cause =>
    if !form.isQuiet then fail 2 (name ++ ": ".toList ++ causeText cause) else spoil 2
    return none
  | .ok text =>
    let lines := searchedLines form search text
    let meant := lines.countP SearchedLine.isMeant
    let count := (form.most.map (min meant)).getD meant
    match form.finding with
    | .nothing => return some (count > 0)
    | .names hasLine =>
      if (count > 0) == hasLine then
        say (name ++ [if form.endsNames then '\x00' else '\n'])
      return some (count > 0)
    | .count =>
      say ((if form.hasName then name ++ [if form.endsNames then '\x00' else ':'] else []) ++
        Text.ofNat count ++ ['\n'])
      return some (count > 0)
    | _ =>
      let isBinary := !form.showsBinary && form.ending ≠ '\x00' && text.contains '\x00'
      if isBinary then
        if count > 0 then
          say ((← get).name ++ ": ".toList ++ name ++ ": binary file matches\n".toList)
      else
        let start : Printed := { hasOutput }
        let printed := lines.foldl (Printed.add form search name) start
        say printed.output.reverse.flatten
      return some (count > 0)
where
  readsOutputFile (w : Work) (path : Text) : Bool :=
    let found := if path = inputPath then w.inputFile.map Prod.fst
      else (w.disk.lookup (toOctets path)).toOption.map Prod.fst
    found.any fun number => w.outputFile.any fun output => output.1 = number

structure Walk where
  followsLinks : Bool
  included : List Text
  excluded : List Text
  excludedDirectories : List Text

namespace Walk

def isAny (patterns : List Text) (name : Text) : Bool :=
  patterns.any fun pattern => matchPattern (pattern.map (·, false)) name

def takes (walk : Walk) (name : Text) : Bool :=
  !isAny walk.excluded name && (walk.included.isEmpty || isAny walk.included name)

/-- The files at and below a path, at most so many directories deep. -/
def files (walk : Walk) (disk : Disk) : Nat → (isArgument : Bool) → (name : Text) →
    (path : Text) → List Text
  | 0, _, _, _ => []
  | depth + 1, isArgument, name, path =>
    let follows := isArgument || walk.followsLinks
    match disk.look follows (toOctets path) with
    | .error _ => [path]
    | .ok (_, node) =>
      match node with
      | .directory _ entries =>
        if !isArgument && isAny walk.excludedDirectories name then []
        else entries.flatMap fun (name, _) =>
          let name := ofOctets name
          walk.files disk depth false name
            (if path.isEmpty then name else insidePath path name)
      | .link _ => []
      | .device _ => if isArgument then [path] else []
      | _ => if walk.takes name then [path] else []

end Walk

/-- The expressions that options and words give, and the words behind them. -/
def expressionsOf (given : Given) : Tool (Option (List Text × List Text)) := do
  let mut patterns : List Text := []
  let mut isGiven := false
  for (key, value) in given.options do
    if key = ['e'] then
      patterns := patterns ++ Text.split '\n' value
      isGiven := true
    if key = ['f'] then
      match ← contentOf value with
      | .ok text => patterns := patterns ++ linesOf '\n' text
      | .error cause => giveUp 2 (value ++ ": ".toList ++ causeText cause)
      isGiven := true
  if isGiven then return some (patterns, given.words)
  else match given.words with
    | [] => return none
    | pattern :: words => return some (Text.split '\n' pattern, words)

def lineCount (complaint : Text → Text) (text : Text) : Tool Nat := do
  match Numeral.ofText? text with
  | some (.ofNat n) => return n
  | _ => giveUp 2 (complaint text)

def searchUsage {α : Type} (status : Nat) : Tool α := do
  let name := (← get).name
  mutter ("Usage: ".toList ++ name ++ " [OPTION]... PATTERNS [FILE]...\n".toList)
  refer status

def searchTable : OptionTable :=
  .of "0123456789A:B:C:D:EFGHIPTUX:abcd:e:f:hiLlm:noqRrsuvwxyZz" [("basic-regexp", "G"),
    ("extended-regexp", "E"), ("fixed-regexp", "F"), ("fixed-strings", "F"),
    ("perl-regexp", "P"), ("after-context=", "A"), ("before-context=", "B"), ("context=", "C"),
    ("binary-files=", "binary"), ("binary", "U"), ("byte-offset", "b"), ("color?", "color"),
    ("colour?", "color"), ("count", "c"), ("devices=", "D"), ("directories=", "d"),
    ("dereference-recursive", "R"), ("exclude=", "exclude"), ("exclude-from=", "excludes"),
    ("exclude-dir=", "exclude-dir"), ("file=", "f"), ("files-with-matches", "l"),
    ("files-without-match", "L"), ("group-separator=", "separator"), ("include=", "include"),
    ("ignore-case", "i"), ("no-ignore-case", "no-ignore-case"), ("initial-tab", "T"),
    ("label=", "label"), ("line-buffered", "buffered"), ("line-number", "n"),
    ("line-regexp", "x"), ("max-count=", "m"), ("no-filename", "h"), ("no-group-separator", "no"),
    ("no-messages", "s"), ("null", "Z"), ("null-data", "z"), ("only-matching", "o"),
    ("quiet", "q"), ("recursive", "r"), ("regexp=", "e"), ("invert-match", "v"), ("silent", "q"),
    ("text", "a"), ("word-regexp", "w"), ("with-filename", "H")]

def searchOf (given : Given) (kind : Char) (patterns : List Text) : Tool Search := do
  let read (pattern : Text) : Tool Regex := do
    if kind = 'F' then return .ofText pattern
    let isNamed := pattern.length > 3 && pattern.take 2 = ['[', ':'] &&
      pattern.drop (pattern.length - 2) = [':', ']'] && !(pattern.drop 1).contains '['
    if isNamed then giveUp 2 "character class syntax is [[:space:]], not [:space:]".toList
    match Regex.read (kind ≠ 'G') pattern with
    | .ok regex => return regex
    | .error mistake => giveUp 2 mistake.description
  let mut expressions : List Regex := []
  for pattern in patterns do expressions := expressions ++ [← read pattern]
  return {
    expressions, isInverted := given.has "v"
    ignoresCase := ["i", "y"].any given.has && given.last? ["i", "y", "no-ignore-case"] ≠
      some "no-ignore-case".toList
    extent := if given.has "x" then .lines else if given.has "w" then .words else .anywhere }

def contextLength (text : Text) : Tool Nat :=
  lineCount (fun text => text ++ ": invalid context length argument".toList) text

def mostLines (text : Text) : Tool (Option Nat) := do
  if text.head? = some '-' && (Numeral.ofText? text).isSome then return none
  return some (← lineCount (fun _ => "invalid max count".toList) text)

def checkSearch (before : List (Text × Text)) (key value : Text) : Tool Unit := do
  let choices := ["read", "recurse", "skip"].map String.toList
  let isKind (key : Text) : Bool := [['E'], ['F'], ['G'], ['P']].contains key
  if isKind key && before.any fun entry => isKind entry.1 && entry.1 ≠ key then
    giveUp 2 "conflicting matchers specified".toList
  if ["A", "B", "C"].any fun name => key = name.toList then
    let _ ← contextLength value
  if key = ['m'] then
    let _ ← mostLines value
  if key = ['f'] && value ≠ inputPath then
    if let .error cause := ← contentOf value then
      giveUp 2 (value ++ ": ".toList ++ causeText cause)
  if key = ['d'] && !(choices.any value.isPrefixOf) then
    complain ("invalid argument ".toList ++ Quoted.escaped value ++
      " for '--directories'\nValid arguments are:".toList)
    mutter (choices.flatMap fun word => "  - ".toList ++ Quoted.escaped word ++ ['\n'])
    searchUsage 1
  if key = ['D'] && !(["read", "skip"].any fun word => word.toList = value) then
    giveUp 2 "unknown devices method".toList
  if key = "binary".toList &&
      !(["binary", "text", "without-match"].any fun word => word.toList = value) then
    giveUp 2 "unknown binary-files type".toList

/-- Prints the lines in which one of some expressions is found. The letter tells how these are
written unless an option does. -/
def grepAs (kind : Char) : Program := do
  let given ← givenOr (fun mistake => do complain mistake.description; searchUsage 2) searchTable
    checkSearch
  let kind := match given.last? ["E", "F", "G", "P"] with
    | some [c] => c
    | _ => kind
  let digits := (given.options.map Prod.fst).flatten.filter Char.isDigit
  let contextOf (key : String) : Tool (Option Nat) := do
    match given.value? key with
    | some text => return some (← contextLength text)
    | none => return none
  let around ← contextOf "C"
  let both := if digits.isEmpty then around else Numeral.ofDigits? 10 digits
  let before := (← contextOf "B").or both
  let after := (← contextOf "A").or both
  let most ← match given.value? "m" with
    | some text => mostLines text
    | none => pure none
  let some (patterns, words) ← expressionsOf given | searchUsage 2
  if most = some 0 then quit 1
  let search ← searchOf given kind patterns
  let isDeep := ["r", "R"].any given.has || given.value? "d" = some "recurse".toList
  let valuesOf (key : String) : List Text :=
    (given.options.filter fun entry => entry.1 = key.toList).map Prod.snd
  let walk : Walk :=
    { followsLinks := given.has "R", included := valuesOf "include", excluded := valuesOf "exclude"
      excludedDirectories := valuesOf "exclude-dir" }
  let paths := if words.isEmpty then if isDeep then [[]] else [inputPath] else words
  let hasName := match given.last? ["H", "h"] with
    | some ['H'] => true
    | some _ => false
    | none => words.length > 1 || isDeep
  let finding : Finding :=
    if given.has "q" then .nothing
    else match given.last? ["l", "L"] with
      | some ['l'] => .names true
      | some _ => .names false
      | none => if given.has "c" then .count else if given.has "o" then .parts else .lines
  let form : FindingForm :=
    { finding, hasName, hasNumber := given.has "n", hasOffset := given.has "b"
      endsNames := given.has "Z", before, after, most, isQuiet := given.has "s"
      showsBinary := given.has "a" || given.value? "binary" = some "text".toList
      ending := given.ending }
  let label := (given.value? "label").getD "(standard input)".toList
  let disk := (← get).disk
  let mut found := false
  for path in paths do
    let files := if path = inputPath || !isDeep then
        if path = inputPath || walk.takes (baseName path) || !disk.pathExists (toOctets path) then
          [path]
        else []
      else walk.files disk (disk.nodes.size + 1) true (baseName path)
        (if path.isEmpty then ['.'] else path)
    let shown (file : Text) : Text :=
      if file = inputPath then label
      else if path.isEmpty then (Text.dropStart? ['.', '/'] file).getD file
      else file
    let skips := given.value? "d" = some "skip".toList &&
      (disk.node? (toOctets path)).any Node.isDirectory
    for file in (if skips then [] else files) do
      let hasOutput := !(← get).written.isEmpty && found
      if let some true := ← searchSource form search hasOutput (shown file) file then
        found := true
        if given.has "q" then quit 0
  unless found do if (← get).status = 0 then spoil 1

def grep : Program := grepAs 'G'

end FirmwareBuild.Posix.Program
