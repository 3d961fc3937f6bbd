import FirmwareBuild.Posix.Program.Order
import FirmwareBuild.Posix.Program.Source

/-! # Sorting

A program that puts lines in order. What is compared first are keys, which are parts
of the lines, each with an order of its own; lines with equal keys are compared as a
whole. -/

namespace FirmwareBuild.Posix.Program

open Tool

inductive KeyOrder where
  | plain
  | numeric
  | general
  | human
  | monthly
  | version
  deriving DecidableEq, Repr

def KeyOrder.compare : KeyOrder → Text → Text → Ordering
  | plain => LineOrder.plain
  | numeric => LineOrder.numeric
  | general => LineOrder.general
  | human => LineOrder.human
  | monthly => LineOrder.monthly
  | version => LineOrder.version

/-- The letters that tell how something is compared. -/
def orderLetters : Text := ['b', 'd', 'f', 'g', 'h', 'i', 'M', 'n', 'r', 'R', 'V']

/-- How something is compared: letters as they were given. -/
structure KeyOptions where
  letters : Text := []
  deriving DecidableEq, Repr

namespace KeyOptions

def has (options : KeyOptions) (letter : Char) : Bool := options.letters.contains letter

def order (options : KeyOptions) : KeyOrder :=
  if options.has 'n' then .numeric
  else if options.has 'g' then .general
  else if options.has 'h' then .human
  else if options.has 'M' then .monthly
  else if options.has 'V' then .version
  else .plain

/-- The characters of a key that count, as they are compared. -/
def view (options : KeyOptions) (text : Text) : Text :=
  let counts (c : Char) : Bool :=
    if options.has 'd' then c.isAlphanum || c == ' ' || c == '\t'
    else if options.has 'i' then isPrintable c
    else true
  let kept := if options.has 'd' || options.has 'i' then text.filter counts else text
  if options.has 'f' then kept.map Char.toUpper else kept

/-- Letters that do not go together, if there are any. -/
def clash? (options : KeyOptions) : Option Text :=
  let kinds := ['n', 'g', 'h', 'M'].countP options.has +
    if ['V', 'R', 'd', 'i'].any options.has then 1 else 0
  let shown := "dfghiMnRV".toList.filter options.has
  if kinds > 1 then some (if options.has 'd' then shown.filter (· ≠ 'i') else shown) else none

end KeyOptions

/-- A part of lines: from a character of a field to one of another field, or to the end. -/
structure SortKey where
  startField : Nat := 0
  startChar : Nat := 0
  /-- The number of fields that are passed over up to the end, and of characters of the next one. -/
  ending : Option (Nat × Nat) := none
  /-- Blanks in front of the first and the last character are passed over. -/
  skipsStart : Bool := false
  skipsEnd : Bool := false
  options : KeyOptions := {}

namespace SortKey

/-- The number of characters of the field in front of a text. A separator in front of the next
field is not counted. -/
def fieldLength (separator : Option Char) (text : Text) : Nat :=
  match separator with
  | some c => (text.takeWhile (· ≠ c)).length
  | none =>
    let blanks := (text.takeWhile LineOrder.isBlank).length
    blanks + ((text.drop blanks).takeWhile fun c => !LineOrder.isBlank c).length

/-- The number of characters of so many fields with the separators behind them. -/
def passFields (separator : Option Char) : Nat → Text → (passed : Nat) → Nat
  | 0, _, passed => passed
  | n + 1, text, passed =>
    let length := fieldLength separator text
    let rest := text.drop length
    match separator, rest with
    | some _, _ :: rest => passFields separator n rest (passed + length + 1)
    | _, [] => passed + length
    | none, rest => passFields separator n rest (passed + length)

def afterBlanks (line : Text) (place : Nat) : Nat :=
  place + ((line.drop place).takeWhile LineOrder.isBlank).length

def start (separator : Option Char) (key : SortKey) (line : Text) : Nat :=
  let place := passFields separator key.startField line 0
  let place := if key.skipsStart then afterBlanks line place else place
  min line.length (place + key.startChar)

def stop (separator : Option Char) (key : SortKey) (line : Text) : Nat :=
  match key.ending with
  | none => line.length
  | some (fields, 0) =>
    let place := passFields separator fields line 0
    min line.length (place + fieldLength separator (line.drop place))
  | some (fields, count) =>
    let place := passFields separator fields line 0
    let place := if key.skipsEnd then afterBlanks line place else place
    min line.length (place + count)

def ofLine (separator : Option Char) (key : SortKey) (line : Text) : Text :=
  let start := key.start separator line
  key.options.view ((line.drop start).take (key.stop separator line - start))

def compare (separator : Option Char) (key : SortKey) (a b : Text) : Ordering :=
  let order := key.options.order.compare (key.ofLine separator a) (key.ofLine separator b)
  if key.options.has 'r' then order.swap else order

def giveUp {α : Type} (what : String) (text : Text) : Tool α :=
  Tool.giveUp 2 (what.toList ++ ": invalid field specification ".toList ++ Quoted.escaped text)

def count (what : String) (text : Text) : Tool (Nat × Text) := do
  let inside := text.dropWhile Numeral.isSpace
  let inside := if inside.head? = some '+' then inside.tail else inside
  let digits := inside.takeWhile Char.isDigit
  match Numeral.ofDigits? 10 digits with
  | some n => return (n, inside.drop digits.length)
  | none =>
    Tool.giveUp 2 (what.toList ++ ": invalid count at start of ".toList ++ Quoted.escaped text)

def lettersOf (text : Text) : Text × Text :=
  let letters := text.takeWhile orderLetters.contains
  (letters, text.drop letters.length)

/-- Reads a key such as `2.3n,4`. -/
def read (text : Text) : Tool SortKey := do
  let (field, rest) ← count "invalid number at field start" text
  if field = 0 then giveUp "field number is zero" text
  let (char, rest) ← match rest with
    | '.' :: rest => count "invalid number after '.'" rest
    | rest => pure (1, rest)
  if char = 0 then giveUp "character offset is zero" text
  let (letters, rest) := lettersOf rest
  let key : SortKey :=
    { startField := field - 1, startChar := char - 1, skipsStart := letters.contains 'b'
      options := { letters } }
  match rest with
  | [] => return key
  | ',' :: rest =>
    let (field, rest) ← count "invalid number after ','" rest
    if field = 0 then giveUp "field number is zero" text
    let (char, rest) ← match rest with
      | '.' :: rest => count "invalid number after '.'" rest
      | rest => pure (0, rest)
    let (more, rest) := lettersOf rest
    unless rest.isEmpty do giveUp "stray character in field spec" text
    return { key with
      ending := some (field - 1, char), skipsEnd := more.contains 'b'
      options := { letters := letters ++ more } }
  | _ => giveUp "stray character in field spec" text

end SortKey

structure SortRule where
  keys : List SortKey
  separator : Option Char
  isReverse : Bool
  isStable : Bool
  isUnique : Bool

def SortRule.compare (rule : SortRule) (a b : Text) : Ordering :=
  let byKeys := rule.keys.foldl (fun order key =>
    order.then (key.compare rule.separator a b)) .eq
  if !rule.keys.isEmpty && (rule.isUnique || rule.isStable) then byKeys
  else
    let whole := LineOrder.plain a b
    byKeys.then (if rule.isReverse then whole.swap else whole)

/-- Lines without those that count as equal to the one before. -/
def SortRule.unite (rule : SortRule) (lines : List Text) : List Text :=
  (lines.foldl (fun done line =>
    match done with
    | latest :: _ => if rule.compare latest line = .eq then done else line :: done
    | [] => [line]) []).reverse

/-- The first line that is out of order, with its number. -/
def SortRule.disorder? (rule : SortRule) : Nat → List Text → Option (Nat × Text)
  | n, a :: b :: rest =>
    let order := rule.compare a b
    if order = .gt || (rule.isUnique && order = .eq) then some (n + 1, b)
    else rule.disorder? (n + 1) (b :: rest)
  | _, _ => none

def oldPlace? (text : Text) : Option (Nat × Nat × Text) := do
  let field := text.takeWhile Char.isDigit
  let rest := text.drop field.length
  let char := if rest.head? = some '.' then rest.tail.takeWhile Char.isDigit else []
  let rest := if char.isEmpty then rest else rest.drop (char.length + 1)
  return (← Numeral.ofDigits? 10 field, (Numeral.ofDigits? 10 char).getD 0, rest)

/-- Arguments in which keys of the old form are written in the usual one. Such a key begins behind a
plus sign and ends behind a hyphen, and its fields and characters count from zero. -/
def withOldKeys : List Text → List Text
  | [] => []
  | arg :: rest =>
    let start? := if arg.head? = some '+' then oldPlace? arg.tail else none
    match start?.filter fun (_, _, letters) => letters.all orderLetters.contains with
    | none => arg :: if arg = ['-', '-'] then rest else withOldKeys rest
    | some (field, char, letters) =>
      let start := Text.ofNat (field + 1) ++ '.' :: Text.ofNat (char + 1) ++ letters
      let stop? := match rest.head? with
        | some ('-' :: text) => oldPlace? text
        | _ => none
      match stop?, rest with
      | some (field, char, letters), _ :: rest =>
        let stop := if char = 0 then Text.ofNat field
          else Text.ofNat (field + 1) ++ '.' :: Text.ofNat char
        ['-', 'k'] :: (start ++ ',' :: stop ++ letters) :: withOldKeys rest
      | _, rest => ['-', 'k'] :: start :: withOldKeys rest

def separatorOf (value : Text) : Tool Char := do
  match value with
  | [] => giveUp 2 "empty tab".toList
  | [c] => return c
  | ['\\', '0'] => return '\x00'
  | text => giveUp 2 ("multi-character tab ".toList ++ Quoted.escaped text)

def sortWords : List (String × Char) :=
  [("general-numeric", 'g'), ("human-numeric", 'h'), ("month", 'M'), ("numeric", 'n'),
    ("random", 'R'), ("version", 'V')]

def checkWords : List String := ["quiet silent", "diagnose-first"]

def lettersFor (key value : Text) : Tool Text := do
  if key = "sort".toList then
    let word ← oneOf "--sort" (sortWords.map Prod.fst) value
    return ((sortWords.map fun (word, letter) => (word.toList, letter)).lookup word).toList
  match key with
  | [c] => return if orderLetters.contains c then [c] else []
  | _ => return []

/-- Whether an option asks for a check, and whether nothing is said about what it finds. -/
def checkFor? (key value : Text) : Tool (Option Bool) := do
  if key = ['c'] then return some false
  if key = ['C'] then return some true
  if key ≠ "check".toList then return none
  if value.isEmpty then return some false
  return some ((← oneOf "--check" checkWords value) = "quiet".toList)

def checkSorting (before : List (Text × Text)) (key value : Text) : Tool Unit := do
  let values := (before.filter fun entry => entry.1 = key).map Prod.snd
  if key = ['o'] && values.any (· ≠ value) then giveUp 2 "multiple output files specified".toList
  if key = ['k'] then
    let _ ← SortKey.read value
  if key = ['t'] then
    let _ ← separatorOf value
    if values.any (· ≠ value) then giveUp 2 "incompatible tabs".toList
  let _ ← lettersFor key value
  let _ ← checkFor? key value

def incompatible {α : Type} (letters : Text) : Tool α :=
  giveUp 2 ("options '-".toList ++ letters ++ "' are incompatible".toList)

/-- The keys that the options name. A key without letters of its own has those of all. -/
def sortKeys (given : Given) : Tool (List SortKey) := do
  let mut keys : List SortKey := []
  let mut letters : Text := []
  for (key, value) in given.options do
    if key = ['k'] then keys := keys ++ [← SortKey.read value]
    letters := letters ++ (← lettersFor key value)
  let inherit (key : SortKey) : SortKey :=
    if key.options.letters.isEmpty && !key.skipsEnd then
      { key with skipsStart := letters.contains 'b', skipsEnd := letters.contains 'b'
                 options := { letters } }
    else key
  let whole : List SortKey := if letters.all (· == 'r') then [] else [inherit {}]
  let complete := if keys.isEmpty then whole else keys.map inherit
  for key in complete do
    if let some clash := key.options.clash? then incompatible clash
  return complete

/-- The lines of sources, or the end of the program over one that cannot be read. -/
def sortedSources (isCheck : Bool) (ending : Char) (paths : List Text) :
    Tool (List (List Text)) := do
  let mut all : List (List Text) := []
  for path in paths do
    match ← contentOf path with
    | .ok text => all := all ++ [linesOf ending text]
    | .error cause =>
      let what := if cause = .badStream && !isCheck then "stat failed: "
        else if cause = .badStream || cause = .isADirectory then "read failed: "
        else "open failed: "
      giveUp 2 (what.toList ++ Quoted.name path ++ ": ".toList ++ causeText cause)
  return all

def sortOutlet (target? : Option Text) : Tool Outlet := do
  match target? with
  | none => return .stream 1
  | some target =>
    match ← Outlet.ofPath target with
    | .ok outlet => return outlet
    | .error cause =>
      giveUp 2 ("open failed: ".toList ++ Quoted.name target ++ ": ".toList ++ causeText cause)

def sortOptions : OptionTable :=
  .of "bcCdfghik:mMno:rRsS:t:T:uVz" [("ignore-leading-blanks", "b"), ("check?", "check"),
    ("compress-program=", "compress"), ("debug", "debug"), ("dictionary-order", "d"),
    ("files0-from=", "files"), ("ignore-case", "f"), ("general-numeric-sort", "g"),
    ("ignore-nonprinting", "i"), ("key=", "k"), ("merge", "m"), ("month-sort", "M"),
    ("numeric-sort", "n"), ("human-numeric-sort", "h"), ("version-sort", "V"),
    ("random-sort", "R"), ("random-source=", "source"), ("sort=", "sort"), ("output=", "o"),
    ("reverse", "r"), ("stable", "s"), ("batch-size=", "batch"), ("buffer-size=", "S"),
    ("field-separator=", "t"), ("temporary-directory=", "T"), ("unique", "u"),
    ("zero-terminated", "z"), ("parallel=", "parallel")]

def sort : Program := do
  modify fun w => { w with args := withOldKeys w.args }
  let given ← givenChecked 2 sortOptions checkSorting
  let separator ← (given.value? "t").mapM separatorOf
  let mut check? : Option Bool := none
  for (key, value) in given.options do
    let asked? ← checkFor? key value
    if check?.isSome && asked?.isSome && check? ≠ asked? then incompatible ['c', 'C']
    check? := asked?.or check?
  let keys ← sortKeys given
  let rule : SortRule :=
    { keys, separator, isReverse := given.has "r", isStable := given.has "s"
      isUnique := given.has "u" }
  let paths := sources given.words
  let isBefore (a b : Text) : Bool := rule.compare a b != .gt
  if let some isQuiet := check? then
    let letter := if isQuiet then 'C' else 'c'
    if let some word := given.words[1]? then
      giveUp 2 ("extra operand ".toList ++ Quoted.escaped word ++ " not allowed with -".toList ++
        [letter])
    if given.has "o" then incompatible [letter, 'o']
    let lines := (← sortedSources true given.ending paths).flatten
    if let some (n, line) := rule.disorder? 1 lines then
      unless isQuiet do
        complain (paths.headD [] ++ ':' :: Text.ofNat n ++ ": disorder: ".toList ++ line)
      quit 1
    quit 0
  for path in paths do
    if path ≠ inputPath then
      if let .error cause := (← get).disk.lookup (toOctets path) then
        giveUp 2 ("cannot read: ".toList ++ Quoted.name path ++ ": ".toList ++ causeText cause)
  let target? := given.value? "o"
  let outlet ← sortOutlet target?
  let all ← sortedSources false given.ending paths
  let ordered := if given.has "m" then
      all.foldl (fun done lines => List.merge done lines isBefore) []
    else all.flatten.mergeSort isBefore
  let lines := if rule.isUnique then rule.unite ordered else ordered
  outlet.clear
  if let .error cause := ← outlet.put true (ofLines given.ending lines) then
    giveUp 2 ("write failed: ".toList ++ Quoted.name (target?.getD []) ++ ": ".toList ++
      causeText cause)

end FirmwareBuild.Posix.Program
