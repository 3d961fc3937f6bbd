import FirmwareBuild.Posix.Program.Source

/-! # Programs that pass on what they read

Programs that print files or their input as they are, with marks, in part, or from
the end on, and one that puts its input into files on the way. -/

namespace FirmwareBuild.Posix.Program

open Tool

/-! ## Whole files -/

inductive Numbering where
  | none
  | all
  /-- The lines that are not empty. -/
  | filled
  deriving DecidableEq, Repr

structure Marking where
  numbering : Numbering
  squeezes : Bool
  marksEnds : Bool
  marksTabs : Bool
  marksUnseen : Bool

/-- How far text was shown: the number of the latest line, whether empty lines were the latest, and
whether a line is not ended yet. -/
structure Shown where
  line : Nat := 0
  isBehindEmpty : Bool := false
  isInLine : Bool := false

/-- A character that cannot be seen, by a circumflex, with `M-` in front for the upper half. -/
def unseen (c : Char) : Text :=
  let low (n : Nat) : Text :=
    if n < 32 then ['^', Char.ofNat (n + 64)] else if n = 127 then ['^', '?'] else [Char.ofNat n]
  if c.toNat < 128 then low c.toNat else 'M' :: '-' :: low (c.toNat - 128)

def markInside (marking : Marking) (isEnded : Bool) (text : Text) : Text :=
  let shown := text.flatMap fun c =>
    if c = '\t' then if marking.marksTabs then ['^', 'I'] else [c]
    else if marking.marksUnseen then unseen c
    else [c]
  if marking.marksEnds && isEnded && shown.getLast? = some '\r' then shown.dropLast ++ ['^', 'M']
  else shown

def markLine (marking : Marking) (state : Shown) (text : Text) (isEnded : Bool) : Text × Shown :=
  let isEmpty := text.isEmpty && !state.isInLine
  if isEmpty && (!isEnded || (marking.squeezes && state.isBehindEmpty)) then ([], state)
  else
    let isNumbered := !state.isInLine && match marking.numbering with
      | .none => false
      | .all => true
      | .filled => !isEmpty
    let line := if isNumbered then state.line + 1 else state.line
    let number := if isNumbered then ({ width := 6 } : Layout).fill (Text.ofNat line) ++ ['\t']
      else []
    let ending := if !isEnded then [] else if marking.marksEnds then ['$', '\n'] else ['\n']
    (number ++ markInside marking isEnded text ++ ending,
      { line, isBehindEmpty := isEmpty, isInLine := !isEnded })

/-- Lines with marks, the latest first in what was shown before. -/
def markLines (marking : Marking) : List Text → Shown → List Text → List Text × Shown
  | [], state, done => (done, state)
  | [text], state, done =>
    let (line, state) := markLine marking state text false
    (line :: done, state)
  | text :: rest, state, done =>
    let (line, state) := markLine marking state text true
    markLines marking rest state (line :: done)

def writtenLength (stream : Nat) (w : Work) : Nat :=
  Text.total (w.written.map fun entry => if entry.1 = stream then entry.2.length else 0)

/-- Whether a source is the file that the output goes to, and would be read further than the place
that is written to. -/
def readsOutput (w : Work) (path : Text) : Bool :=
  let found := if path = inputPath then w.inputFile.map Prod.fst
    else (w.disk.lookup (toOctets path)).toOption.map Prod.fst
  match found, w.outputFile with
  | some number, some (output, place) =>
    let size := ((w.disk.nodes[number]?).map Node.size).getD 0
    let rest := if path = inputPath then (w.inputNow.toOption.getD []).length else size
    number == output && size - rest < place + writtenLength 1 w
  | _, _ => false

def cat : Program := do
  let given ← given 1 (.of "benstuvAET" [("number-nonblank", "b"), ("number", "n"),
    ("squeeze-blank", "s"), ("show-nonprinting", "v"), ("show-ends", "E"), ("show-tabs", "T"),
    ("show-all", "A")])
  let any (keys : List String) : Bool := keys.any given.has
  let marking : Marking :=
    { numbering := if given.has "b" then .filled else if given.has "n" then .all else .none
      squeezes := given.has "s", marksEnds := any ["E", "e", "A"], marksTabs := any ["T", "t", "A"]
      marksUnseen := any ["v", "e", "t", "A"] }
  let isPlain := !any ["b", "n", "s", "E", "e", "A", "T", "t", "v"]
  unless (← get).isOutputOpen do giveUp 1 ("standard output: ".toList ++ causeText .badStream)
  let mut state : Shown := {}
  for path in sources given.words do
    if readsOutput (← get) path then
      fail 1 (Quoted.name path ++ ": input file is output file".toList)
    else match ← contentOf path with
      | .error cause => failToRead 1 cause path
      | .ok text =>
        if isPlain then say text
        else
          let (lines, after) := markLines marking (Text.split '\n' text) state []
          say lines.reverse.flatten
          state := after
  closeInput "closing standard input" (sources given.words)

/-! ## Starts and ends -/

/-- A part of a text, counted in lines or octets, from its start or from its end. -/
structure Portion where
  isOctets : Bool
  count : Nat
  isFromEnd : Bool

/-- The number of lines of a text, where the last one may lack its end. -/
def countLines (ending : Char) (text : Text) : Nat :=
  text.count ending + if text.getLast?.any (· != ending) then 1 else 0

/-- A text cut in two behind so many lines or octets, or in front of so many. -/
def Portion.divide (portion : Portion) (ending : Char) (text : Text) : Text × Text :=
  let whole := if portion.isOctets then text.length else countLines ending text
  let count := if portion.isFromEnd then whole - portion.count else portion.count
  let length := if portion.isOctets then count
    else (lengthOfLines? ending text count 0).getD text.length
  (text.take length, text.drop length)

/-- Arguments in which a first one such as `-5` tells a number of lines. -/
def withOldCount : List Text → Except Char (List Text)
  | ('-' :: c :: rest) :: others =>
    if !c.isDigit then .ok (('-' :: c :: rest) :: others)
    else
      let digits := (c :: rest).takeWhile Char.isDigit
      let letters := (c :: rest).drop digits.length
      match letters.find? fun c => !(['b', 'c', 'k', 'l', 'm', 'q', 'v', 'z'].contains c) with
      | some wrong => .error wrong
      | none =>
        let size := (letters.filter ['b', 'k', 'm'].contains).getLast?.toList
        let isOctets := (letters.filter ['c', 'l', 'b', 'k', 'm'].contains).getLast?.any (· != 'l')
        .ok (['-', if isOctets then 'c' else 'n'] :: (digits ++ size) ::
          (letters.filter ['q', 'v', 'z'].contains).map (fun c => ['-', c]) ++ others)
  | args => .ok args

/-- The portion that an option asks for, by lines or by octets. The sign in front of the number that
stands for the usual direction is passed over, and the other one turns it. -/
def portionOf (usual other : Char) (isFromEnd : Bool) (key value : Text) : Tool Portion := do
  let isOctets := key = ['c']
  let what := if isOctets then "invalid number of bytes: " else "invalid number of lines: "
  let isOther := value.head? = some other
  let text := if isOther || value.head? = some usual then value.tail else value
  return { isOctets, count := ← size what text, isFromEnd := isOther != isFromEnd }

/-- The portion that is asked for last, which is ten lines unless an option says something else. -/
def lastPortion (usual other : Char) (isFromEnd : Bool) (given : Given) : Tool Portion := do
  let asked := given.options.filter fun (key, _) => key = ['c'] || key = ['n']
  match asked.getLast? with
  | some (key, value) => portionOf usual other isFromEnd key value
  | none => return { isOctets := false, count := 10, isFromEnd }

/-- The options of programs that print a portion. Each tells one, and a digit is a mistake. -/
def portionOptions (letters : String) (names : List (String × String)) (usual other : Char)
    (isFromEnd : Bool) (onDigit : Char → Tool Unit) : Tool Given :=
  givenChecked 1 (.of ("c:n:qvz0123456789" ++ letters) ([("bytes=", "c"), ("lines=", "n"),
    ("quiet", "q"), ("silent", "q"), ("verbose", "v"), ("zero-terminated", "z")] ++ names))
    fun _ key value => do
      if key = ['c'] || key = ['n'] then
        let _ ← portionOf usual other isFromEnd key value
      if let [c] := key then
        if c.isDigit then onDigit c

/-- Whether the names of several files are shown, or that of one, or none. -/
def showsNames (given : Given) : Bool :=
  match given.last? ["q", "v"] with
  | some ['q'] => false
  | some _ => true
  | none => given.words.length > 1

def sayName (isFirst : Bool) (path : Text) : Tool Unit :=
  say ((if isFirst then [] else ['\n']) ++ "==> ".toList ++ sourceName path ++ " <==\n".toList)

def head : Program := do
  match withOldCount (← get).args with
  | .error wrong => misuse 1 ("invalid trailing option -- ".toList ++ [wrong])
  | .ok args => modify fun w => { w with args }
  let given ← portionOptions "" [] '+' '-' false fun c =>
    misuse 1 ("invalid trailing option -- ".toList ++ [c])
  let portion ← lastPortion '+' '-' false given
  let enough (text : Text) : Option Nat :=
    if portion.isFromEnd then none
    else if portion.isOctets then
      if portion.count ≤ text.length then some portion.count else none
    else lengthOfLines? given.ending text portion.count 0
  let block := if portion.isOctets then 1 else 8192
  let readsNothing := portion.count = 0 && !portion.isFromEnd
  let mut isFirst := true
  for path in sources given.words do
    let part ← startOf block enough path
    let isOpen := match part with
      | .error cause => cause = .isADirectory || cause = .badStream
      | .ok _ => true
    if isOpen && showsNames given then sayName isFirst path
    if isOpen then isFirst := false
    match part with
    | .error cause =>
      if portion.isFromEnd && cause = .badStream then
        fail 1 (about "cannot fstat" (sourceName path) cause)
      else unless isOpen && readsNothing do failToOpen "cannot open" path cause
    | .ok text => say (portion.divide given.ending text).1
  closeInput "-" (sources given.words)

/-- Arguments of which the first tells a number of lines or octets, such as `-5` and `+3c`, if
there is at most one more. -/
def withOldTail (args : List Text) : List Text :=
  let isAlone := match args with
    | [_] => true
    | [_, path] => path.head? ≠ some '-' || path.length = 1
    | [_, ['-', '-'], _] => true
    | _ => false
  match args with
  | (sign :: old) :: others =>
    let digits := old.takeWhile Char.isDigit
    let isAsked := isAlone &&
      (sign = '+' || (sign = '-' && !(if old.head? = some 'c' then old.tail else old).isEmpty))
    match old.drop digits.length with
    | [] | ['l'] | ['b'] | ['c'] =>
      let letter := (old.drop digits.length).headD 'l'
      let digits := if digits.isEmpty then ['1', '0'] else digits
      if isAsked then
        ['-', if letter = 'l' then 'n' else 'c'] ::
          (sign :: digits ++ if letter = 'b' then ['b'] else []) :: others
      else args
    | _ => args
  | _ => args

/-- Prints the last lines or octets, or those from a number on. -/
def tail : Program := do
  modify fun w => { w with args := withOldTail w.args }
  let given ← portionOptions "s:" [("sleep-interval=", "s"), ("pid=", "pid"), ("retry", "retry"),
    ("max-unchanged-stats=", "stats")] '-' '+' true fun c =>
      giveUp 1 ("option used in invalid context -- ".toList ++ [c])
  for (key, what) in [("retry", "--retry ignored; --retry"), ("pid", "PID ignored; --pid=PID")] do
    if given.has key then
      complain ("warning: ".toList ++ what.toList ++ " is useful only when following".toList)
  let last ← lastPortion '-' '+' true given
  let isFromStart := given.options.any fun (key, value) =>
    (key = ['c'] || key = ['n']) && value.head? = some '+'
  let portion := { last with isFromEnd := !isFromStart }
  if portion.isFromEnd && portion.count = 0 then quit 0
  let portion := { portion with
    count := if portion.isFromEnd then portion.count else portion.count - 1 }
  let mut isFirst := true
  for path in sources given.words do
    let content ← contentOf path
    let isOpen := match content with
      | .error cause => cause = .isADirectory || cause = .badStream
      | .ok _ => true
    if isOpen && showsNames given then sayName isFirst path
    if isOpen then isFirst := false
    match content with
    | .error .badStream => fail 1 (about "cannot fstat" (sourceName path) .badStream)
    | .error cause =>
      failToOpen "cannot open" path cause
      let isFatal := portion.isOctets || (isFromStart && portion.count = 0)
      if cause = .isADirectory && isFatal then quit 1
    | .ok text => say (portion.divide given.ending text).2
  closeInput "-" (sources given.words)

/-! ## The other way round -/

/-- The pieces of a text that end behind a separator, or begin with one. -/
def recordsOf (separator : Text) (isInFront : Bool) (text : Text) : List Text :=
  let piece (latest : Text) (done : List Text) : List Text :=
    if latest.isEmpty then done else latest.reverse :: done
  let rec go (skip : Nat) (latest : Text) (done : List Text) : Text → List Text
    | [] => piece latest done
    | c :: rest =>
      if skip > 0 then
        if skip = 1 && !isInFront then go 0 [] (piece (c :: latest) done) rest
        else go (skip - 1) (c :: latest) done rest
      else if (Text.dropStart? separator (c :: rest)).isNone then go 0 (c :: latest) done rest
      else if isInFront then go (separator.length - 1) [c] (piece latest done) rest
      else if separator.length = 1 then go 0 [] (piece (c :: latest) done) rest
      else go (separator.length - 1) (c :: latest) done rest
  go 0 [] [] text

def tac : Program := do
  let given ← given 1 (.of "brs:" [("before", "b"), ("regex", "r"), ("separator=", "s")])
  if given.has "r" && given.value? "s" = some [] then giveUp 1 "separator cannot be empty".toList
  let separator := match given.value? "s" with
    | some [] => ['\x00']
    | some text => text
    | none => ['\n']
  let mut output : List Text := []
  for path in sources given.words do
    match ← contentOf path with
    | .ok text => output := output ++ recordsOf separator (given.has "b") text
    | .error .isADirectory =>
      let name := if path = inputPath then Quoted.always inputName else Quoted.name path
      fail 1 (name ++ ": read error: Invalid argument".toList)
    | .error .badStream =>
      fail 1 (Quoted.always inputName ++ ": read error: ".toList ++ causeText .badStream)
    | .error cause => failToOpen "failed to open" path cause
  say output.flatten
  closeInput "-" (sources given.words)

def rev : Program := do
  let given ← given 1 (.of "0hV" [("zero", "0")])
  let ending := if given.has "0" then '\x00' else '\n'
  let mut output : List Text := []
  for path in sources given.words do
    let isNamed := !given.words.isEmpty && path = inputPath
    match ← if isNamed then pure (.error .notFound) else contentOf path with
    | .ok text =>
      let lines := (Text.split ending text).map List.reverse
      output := output ++ [Text.join [ending] lines]
    | .error cause =>
      fail 1 ("cannot open ".toList ++ path ++ ": ".toList ++ causeText cause)
  say output.flatten

/-! ## Into files -/

def copyFailures : List String := ["warn", "warn-nopipe", "exit", "exit-nopipe"]

def tee : Program := do
  let table := OptionTable.of "aip" [("append", "a"), ("ignore-interrupts", "i"),
    ("output-error?", "p")]
  let failureOf (value : Text) : Tool Text :=
    if value.isEmpty then return [] else oneOf "--output-error" copyFailures value
  let given ← givenChecked 1 table fun _ key value => do
    if key = ['p'] then
      let _ ← failureOf value
  let failure ← failureOf ((given.value? "p").getD [])
  let mut outlets : List (Text × Outlet) := [("standard output".toList, .stream 1)]
  for path in given.words do
    match ← Outlet.ofPath path with
    | .ok outlet =>
      unless given.has "a" do outlet.clear
      outlets := outlets ++ [(path, outlet)]
    | .error cause =>
      failToRead 1 cause path
      if failure = "exit".toList || failure = "exit-nopipe".toList then quit 1
  match ← readInput with
  | .ok text =>
    for (path, outlet) in outlets do
      if let .error cause := ← outlet.put (given.has "a") text then failToRead 1 cause path
  | .error cause =>
    fail 1 ("read error: ".toList ++ causeText cause)
    if cause = .badStream then fail 1 ("standard input: ".toList ++ causeText cause)

end FirmwareBuild.Posix.Program
