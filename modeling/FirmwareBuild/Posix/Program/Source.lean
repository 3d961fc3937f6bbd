import FirmwareBuild.Posix.Program.Printing

/-! # Sources

What programs read: files by their paths, or the input where a hyphen stands for it
or no path is given. Here are the parts of texts that programs take, the sizes that
tell how much, and the words in which they complain of what cannot be read. -/

namespace FirmwareBuild.Posix

/-- What a hyphen stands for. -/
def inputPath : Text := ['-']

def inputName : Text := "standard input".toList

def sourceName (path : Text) : Text := if path = inputPath then inputName else path

/-- Lines without their ends. A last line may lack its end. -/
def linesOf (ending : Char) (text : Text) : List Text :=
  let pieces := Text.split ending text
  if pieces.getLast? = some [] then pieces.dropLast else pieces

def ofLines (ending : Char) (lines : List Text) : Text := lines.flatMap (· ++ [ending])

/-- The number of characters up to the end of so many lines, if they are all there. -/
def lengthOfLines? (ending : Char) : Text → (lines passed : Nat) → Option Nat
  | _, 0, passed => some passed
  | [], _, _ => none
  | c :: rest, lines + 1, passed =>
    lengthOfLines? ending rest (if c = ending then lines else lines + 1) (passed + 1)

/-- The letters of sizes, each with the power of the base that it stands for. -/
def sizeLetters : List (Char × Nat) :=
  [('k', 1), ('K', 1), ('m', 2), ('M', 2), ('G', 3), ('T', 4), ('P', 5), ('E', 6), ('Z', 7),
    ('Y', 8), ('R', 9), ('Q', 10)]

/-- What a size is multiplied by: 512 for a `b`, and else a power of 1024, or of 1000 if a `B`
follows the letter. -/
def sizeUnit? : Text → Option Nat
  | [] => some 1
  | ['b'] => some 512
  | c :: rest =>
    match sizeLetters.lookup c, rest with
    | some power, [] | some power, ['i', 'B'] => some (Nat.pow 1024 power)
    | some power, ['B'] => some (Nat.pow 1000 power)
    | _, _ => none

/-- A number of lines or octets. A letter alone stands for one of its units. -/
def size? (text : Text) : Option Nat := do
  let inside := text.dropWhile Numeral.isSpace
  let inside := if inside.head? = some '+' then inside.tail else inside
  let digits := inside.takeWhile Char.isDigit
  let unit ← sizeUnit? (inside.drop digits.length)
  if digits.isEmpty then if inside.isEmpty then none else return unit
  else return (← Numeral.ofDigits? 10 digits) * unit

namespace Tool

def size (what : String) (text : Text) : Tool Nat := do
  match size? text with
  | some n =>
    if n < Numeral.wordSize then return n
    giveUp 1 (what.toList ++ Quoted.escaped text ++
      ": Value too large for defined data type".toList)
  | none => giveUp 1 (what.toList ++ Quoted.escaped text)

/-- The start of a source that is enough, which a function tells the length of. All of it is read
if that is not enough. Of an input that one cannot go back in, whole blocks are read. -/
def startOf (block : Nat) (enough : Text → Option Nat) (path : Text) :
    Tool (Except IoError Text) := do
  if inputPaths.contains path then
    let w ← get
    match w.inputNow.map fun text => (text, enough text) with
    | .error cause => return .error cause
    | .ok (_, none) => readInput
    | .ok (text, some n) =>
      let used := if w.inputFile.isSome then n else (n + block - 1) / block * block
      set (w.afterInput (text.drop used) used)
      return .ok (text.take n)
  else return (← contentOf path).map fun text => text.take ((enough text).getD text.length)

/-- Complains, when all is done, of an input that was used and is not open. -/
def closeInput (what : String) (paths : List Text) : Tool Unit := do
  if paths.contains inputPath then
    match (← get).input with
    | .error .badStream => fail 1 (what.toList ++ ": ".toList ++ causeText .badStream)
    | _ => return ()

/-- The sources that were given, or the input. -/
def sources (words : List Text) : List Text := if words.isEmpty then [inputPath] else words

def failToRead (status : Nat) (cause : IoError) (path : Text) : Tool Unit :=
  fail status (Quoted.name path ++ ": ".toList ++ causeText cause)

/-- Complains of a source that cannot be opened, or of one that can be opened and not read. -/
def failToOpen (what : String) (path : Text) (cause : IoError) : Tool Unit :=
  if cause = .isADirectory || cause = .badStream then
    fail 1 (about "error reading" (sourceName path) cause)
  else
    fail 1 (what.toList ++ ' ' :: Quoted.always path ++ " for reading: ".toList ++
      causeText cause)

/-- The choice that an argument is the start of, or the end of the program. Each choice is the words
that stand for it, apart by blanks, and the first of them is the answer. -/
def oneOf (option : String) (choices : List String) (arg : Text) : Tool Text := do
  let groups := choices.map fun choice => Text.split ' ' choice.toList
  let candidates := groups.filter fun words => words.any arg.isPrefixOf
  let whole? := groups.find? fun words => words.contains arg
  match whole?, candidates with
  | some (word :: _), _ | none, [word :: _] => return word
  | _, _ =>
    let kind := if candidates.isEmpty then "invalid" else "ambiguous"
    complain (kind.toList ++ " argument ".toList ++ Quoted.escaped arg ++ " for ".toList ++
      Quoted.escaped option.toList)
    mutter ("Valid arguments are:\n".toList ++ groups.flatMap fun words =>
      "  - ".toList ++ Text.join ", ".toList (words.map Quoted.escaped) ++ ['\n'])
    refer 1

end Tool

inductive Outlet where
  | stream (stream : Nat)
  | file (number : Nat)

namespace Outlet

def paths : List (Text × Nat) :=
  [("/dev/stdout", 1), ("/dev/fd/1", 1), ("/proc/self/fd/1", 1), ("/dev/stderr", 2),
    ("/dev/fd/2", 2), ("/proc/self/fd/2", 2)].map fun (path, number) => (path.toList, number)

/-- The outlet that a path names. A file is made if there is none. -/
def ofPath (path : Text) : Tool (Except IoError Outlet) := do
  match paths.lookup path with
  | some number => return .ok (.stream number)
  | none =>
    let mode := 0x1B6 - (0x1B6 &&& (← get).fileMask)
    return (← Tool.attempt (Disk.openFile (toOctets path) mode)).map .file

def clear : Outlet → Tool Unit
  | stream _ => return ()
  | file number => modify fun w => { w with disk := w.disk.setData number [] }

def put (atEnd : Bool) (text : Text) : Outlet → Tool (Except IoError Unit)
  | stream number => do
    Tool.write number text
    return .ok ()
  | file number => do
    let w ← get
    if w.disk.nodes[number]? = some (.device .full) && !text.isEmpty then return .error .noSpace
    if let some data := (w.disk.nodes[number]?).bind Node.data? then
      let start := if atEnd then data.length else 0
      set { w with disk := w.disk.setData number (Channel.splice data start (toOctets text)) }
    return .ok ()

end Outlet

/-- The character at which lines end: a line feed, unless an option asks for zero octets. -/
def Given.ending (given : Given) : Char := if given.has "z" then '\x00' else '\n'

end FirmwareBuild.Posix
