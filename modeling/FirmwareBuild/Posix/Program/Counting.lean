import FirmwareBuild.Posix.Program.Source

/-! # Counting

A program that counts the lines, words, characters and octets of its sources and
measures their longest lines, and one that puts runs of equal lines together. -/

namespace FirmwareBuild.Posix.Program

open Tool

/-! ## Counts -/

structure Counts where
  lines : Nat := 0
  words : Nat := 0
  octets : Nat := 0
  /-- The width of the longest line on a screen. -/
  width : Nat := 0

/-- The number of words, which are what stands between white space. -/
def countWords : Text → (isInWord : Bool) → (passed : Nat) → Nat
  | [], _, passed => passed
  | c :: rest, isInWord, passed =>
    if Numeral.isSpace c then countWords rest false passed
    else countWords rest true (if isInWord then passed else passed + 1)

/-- The width of the longest line, where a tab goes on to the next multiple of eight. -/
def screenWidth : Text → (place longest : Nat) → Nat
  | [], place, longest => max place longest
  | c :: rest, place, longest =>
    if c = '\n' || c = '\r' || c = '\x0c' then screenWidth rest 0 (max place longest)
    else if c = '\t' then screenWidth rest (place + (8 - place % 8)) longest
    else screenWidth rest (if isPrintable c then place + 1 else place) longest

def Counts.of (text : Text) : Counts :=
  { lines := text.count '\n', words := countWords text false 0, octets := text.length
    width := screenWidth text 0 0 }

def Counts.add (a b : Counts) : Counts :=
  { lines := a.lines + b.lines, words := a.words + b.words, octets := a.octets + b.octets
    width := max a.width b.width }

/-- The counts that are asked for, in order. Without a choice these are lines, words and octets. -/
def Counts.chosen (given : Given) (counts : Counts) : List Nat :=
  let all := [("l", counts.lines), ("w", counts.words), ("m", counts.octets),
    ("c", counts.octets), ("L", counts.width)]
  let chosen := all.filter fun entry => given.has entry.1
  if chosen.isEmpty then [counts.lines, counts.words, counts.octets] else chosen.map Prod.snd

/-- The width of numbers, so that they stand in columns: that of the size of all files together,
and at least seven if there is something that is no file. -/
def columnWidth (w : Work) (paths : List Text) (isSingle : Bool) : Nat :=
  let node? (path : Text) : Option Node :=
    if path = inputPath then
      match w.input, w.inputFile with
      | .error .badStream, _ => none
      | _, some (number, _) => w.disk.nodes[number]?
      | _, none => some (.device .null)
    else w.disk.node? (toOctets path)
  if isSingle then 1
  else
    let nodes := paths.filterMap node?
    let size := Text.total (nodes.map Node.size)
    max (if nodes.all Node.isFile then 1 else 7) (Text.ofNat size).length

def totalWords : List String := ["auto", "always", "only", "never"]

def wc : Program := do
  let table := OptionTable.of "clLmw" [("bytes", "c"), ("chars", "m"), ("lines", "l"),
    ("words", "w"), ("max-line-length", "L"), ("total=", "total")]
  let given ← givenChecked 1 table fun _ key value => do
    if key = "total".toList then
      let _ ← oneOf "--total" totalWords value
  let total ← oneOf "--total" totalWords ((given.value? "total").getD "auto".toList)
  let isOnly := total = "only".toList
  let paths := sources given.words
  let isSingle := paths.length = 1 && (Counts.chosen given {}).length = 1
  let columns := columnWidth (← get) paths isSingle
  let width := if isOnly then 1 else columns
  let tell (counts : Counts) (name : Text) : Tool Unit :=
    say (Text.join [' '] ((counts.chosen given).map fun n =>
      ({ width } : Layout).fill (Text.ofNat n)) ++
      (if name.isEmpty then [] else ' ' :: name) ++ ['\n'])
  let mut all : Counts := {}
  for path in paths do
    let shown := if given.words.isEmpty then [] else path
    if path.isEmpty then fail 1 "invalid zero-length file name".toList
    else match ← contentOf path with
      | .ok text =>
        let counts := Counts.of text
        all := all.add counts
        unless isOnly do tell counts shown
      | .error cause =>
        let name := if given.words.isEmpty then Quoted.always inputName else Quoted.name path
        fail 1 (name ++ ": ".toList ++ causeText cause)
        if cause = .isADirectory || cause = .badStream then unless isOnly do tell {} shown
  let isShown := if total = "auto".toList then paths.length > 1 else total ≠ "never".toList
  if isShown then tell all (if isOnly then [] else "total".toList)
  closeInput "-" paths

/-! ## Runs of lines -/

/-- Lines that follow each other and count as equal, with their number. -/
abbrev Run := List Text

def runsBy (key : Text → Text) (lines : List Text) : List Run :=
  lines.foldr (fun line runs =>
    match runs with
    | (next :: more) :: others =>
      if key line = key next then (line :: next :: more) :: others
      else [line] :: (next :: more) :: others
    | runs => [line] :: runs) []

/-- A text without so many fields in front. A field is what stands behind blanks. -/
def skipFields (count : Nat) (text : Text) : Text :=
  go (min count text.length) text
where
  /-- The text without fields, of which there are no more than it has characters. -/
  go : Nat → Text → Text
    | 0, text => text
    | n + 1, text =>
      let isBlank (c : Char) : Bool := c == ' ' || c == '\t' || c == '\n'
      go n ((text.dropWhile isBlank).dropWhile fun c => !isBlank c)

def countOf (what : String) (text : Text) : Tool Nat := do
  match Numeral.ofDigits? 10 (if text.head? = some '+' then text.tail else text) with
  | some n => return n
  | none => giveUp 1 (text ++ ": ".toList ++ what.toList)

/-- Where empty lines stand between runs. -/
structure Gaps where
  isBefore : Bool := false
  isBetween : Bool := false
  isAfter : Bool := false

def Gaps.of (word : Text) : Gaps :=
  if word = "prepend".toList then { isBefore := true, isBetween := true }
  else if word = "append".toList then { isBetween := true, isAfter := true }
  else if word = "both".toList then { isBefore := true, isBetween := true, isAfter := true }
  else if word = "separate".toList then { isBetween := true }
  else {}

def Gaps.put (gaps : Gaps) (gap : Text) (texts : List Text) : Text :=
  if texts.isEmpty then []
  else
    let between := Text.join (if gaps.isBetween then gap else []) texts
    (if gaps.isBefore then gap else []) ++ between ++ (if gaps.isAfter then gap else [])

/-- What the comparison of lines leaves out in front, and how much it looks at. -/
structure Compared where
  fields : Nat := 0
  /-- The number of fields is being put together from digits. -/
  hasDigits : Bool := false
  characters : Nat := 0
  length : Option Nat := none

def Compared.add (compared : Compared) (key value : Text) : Tool Compared := do
  match key with
  | ['f'] =>
    let fields ← countOf "invalid number of fields to skip" value
    return { compared with fields, hasDigits := false }
  | ['s'] =>
    return { compared with characters := ← countOf "invalid number of bytes to skip" value }
  | ['w'] =>
    return { compared with length := some (← countOf "invalid number of bytes to compare" value) }
  | [c] =>
    if !c.isDigit then return compared
    let before := if compared.hasDigits then compared.fields else 0
    return { compared with fields := before * 10 + (c.toNat - '0'.toNat), hasDigits := true }
  | _ => return compared

def Gaps.add (gaps : Gaps) (key value : Text) : Tool Gaps := do
  if key = ['D'] && !value.isEmpty then
    return .of (← oneOf "--all-repeated" ["none", "prepend", "separate"] value)
  else if key = "group".toList then
    return .of (← oneOf "--group" ["prepend", "append", "separate", "both"]
      (if value.isEmpty then "separate".toList else value))
  else return gaps

/-- The lines of one run that `uniq` writes: all of them when groups are shown, otherwise the first
unless only single lines (or only repeated ones) are wanted, and the rest under `-D`. -/
def keptOf (given : Given) (run : Run) : List Text :=
  if given.has "group" then run
  else if run.length = 1 then if given.has "d" || given.has "D" then [] else run
  else (if given.has "u" then [] else run.take 1) ++ (if given.has "D" then run.drop 1 else [])

def uniq : Program := do
  let table := OptionTable.of "cdDf:is:uw:z0123456789" [("count", "c"), ("repeated", "d"),
    ("all-repeated?", "D"), ("group?", "group"), ("ignore-case", "i"), ("unique", "u"),
    ("skip-fields=", "f"), ("skip-chars=", "s"), ("check-chars=", "w"), ("zero-terminated", "z")]
  let read ← givenChecked 1 table fun _ key value => do
    let _ ← Compared.add {} key value
    let _ ← Gaps.add {} key value
  let isOldSkip (word : Text) : Bool :=
    word.head? == some '+' && (Numeral.ofDigits? 10 word.tail).isSome
  let given := { read with words := read.words.filter fun word => !isOldSkip word }
  let mut compared : Compared := {}
  let mut gaps : Gaps := {}
  for (key, value) in given.options do
    compared ← compared.add key value
    gaps ← gaps.add key value
  if let some word := (read.words.filter isOldSkip).getLast? then
    compared ← compared.add ['s'] word.tail
  match given.words with
  | _ :: _ :: word :: _ => tooMany 1 word
  | _ => pure ()
  if given.has "group" && ["c", "d", "D", "u"].any given.has then
    misuse 1 "--group is mutually exclusive with -c/-d/-D/-u".toList
  if given.has "D" && given.has "c" then
    misuse 1 "printing all duplicated lines and repeat counts is meaningless".toList
  let path := given.words.headD inputPath
  if path ≠ inputPath then
    if let .error cause := (← get).disk.lookup (toOctets path) then failToRead 1 cause path; quit 1
  let outlet ← match given.words[1]? with
    | none => pure (Outlet.stream 1)
    | some target =>
      if target = inputPath then pure (Outlet.stream 1)
      else match ← Outlet.ofPath target with
        | .ok outlet => pure outlet
        | .error cause => failToRead 1 cause target; quit 1
  outlet.clear
  let text ← match ← contentOf path with
    | .ok text => pure text
    | .error cause => giveUp 1 (about "error reading" path cause)
  let key (line : Text) : Text :=
    let rest := (skipFields compared.fields line).drop compared.characters
    let part := (compared.length.map rest.take).getD rest
    if given.has "i" then part.map Char.toLower else part
  let runs := runsBy key (linesOf given.ending text)
  let texts := (runs.filter fun run => !(keptOf given run).isEmpty).map fun run =>
    (keptOf given run).flatMap fun line =>
      (if given.has "c" then ({ width := 7 } : Layout).fill (Text.ofNat run.length) ++ [' ']
        else []) ++ line ++ [given.ending]
  if let .error cause := ← outlet.put true (gaps.put [given.ending] texts) then
    giveUp 1 ("write error: ".toList ++ causeText cause)

end FirmwareBuild.Posix.Program
