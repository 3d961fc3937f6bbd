import FirmwareBuild.Posix.Program

/-! # Options of programs

How programs read their arguments. An option is a letter behind a hyphen, alone or
with others, or a long name behind two, which may be cut short as long as it is
clear what is meant. The value of a letter is what follows it in the argument or
the next argument; that of a long name stands behind an equals sign or is the next
argument. Words may stand between options, unless a program stops at the first. -/

namespace FirmwareBuild.Posix

inductive ValueRule where
  | never
  | always
  /-- Only if it follows in the same argument. -/
  | perhaps
  deriving DecidableEq, Repr

/-- The options that a program knows. Each long name stands for a key: the letter that means the
same, or the name itself. -/
structure OptionTable where
  letters : List (Char × ValueRule)
  names : List (Text × Text × ValueRule)
  /-- Everything behind the first word is a word. -/
  stopsAtWord : Bool := false
  /-- Arguments that are words although they look like options. -/
  isWord : Text → Bool := fun _ => false

namespace OptionTable

/-- The letters of a text. A colon behind a letter means that it has a value, and a question mark
that it may have one. -/
def lettersOf : List Char → List (Char × ValueRule)
  | c :: ':' :: rest => (c, .always) :: lettersOf rest
  | c :: '?' :: rest => (c, .perhaps) :: lettersOf rest
  | c :: rest => (c, .never) :: lettersOf rest
  | [] => []

/-- A long name with its key. An equals sign behind it means that it has a value, and a question
mark that it may have one. -/
def nameOf (entry : String × String) : Text × Text × ValueRule :=
  let name := entry.1.toList
  match name.getLast? with
  | some '=' => (name.dropLast, entry.2.toList, .always)
  | some '?' => (name.dropLast, entry.2.toList, .perhaps)
  | _ => (name, entry.2.toList, .never)

/-- The options of a text of letters and a list of names, and those that every program has. -/
def of (letters : String) (names : List (String × String)) : OptionTable :=
  { letters := lettersOf letters.toList
    names := (names ++ [("help", "help"), ("version", "version")]).map nameOf }

end OptionTable

structure Given where
  options : List (Text × Text) := []
  words : List Text := []

namespace Given

def has (given : Given) (key : String) : Bool := given.options.any fun entry => entry.1 = key.toList

def value? (given : Given) (key : String) : Option Text :=
  (given.options.reverse.find? fun entry => entry.1 = key.toList).map Prod.snd

def last? (given : Given) (keys : List String) : Option Text :=
  (given.options.reverse.find? fun entry => keys.any fun key => entry.1 = key.toList).map Prod.fst

end Given

inductive OptionMistake where
  | unknownLetter (letter : Char)
  | unknownName (name : Text)
  | letterNeedsValue (letter : Char)
  | nameNeedsValue (name : Text)
  | nameTakesNone (name : Text)
  | ambiguous (name : Text) (candidates : List Text)
  deriving DecidableEq, Repr

def OptionMistake.description : OptionMistake → Text
  | unknownLetter letter => "invalid option -- '".toList ++ [letter, '\'']
  | unknownName name => "unrecognized option '--".toList ++ name ++ ['\'']
  | letterNeedsValue letter => "option requires an argument -- '".toList ++ [letter, '\'']
  | nameNeedsValue name => "option '--".toList ++ name ++ "' requires an argument".toList
  | nameTakesNone name => "option '--".toList ++ name ++ "' doesn't allow an argument".toList
  | ambiguous name candidates =>
    "option '--".toList ++ name ++ "' is ambiguous; possibilities:".toList ++
      candidates.flatMap fun candidate => " '--".toList ++ candidate ++ ['\'']

namespace OptionTable

def find (table : OptionTable) (name : Text) : Except OptionMistake (Text × Text × ValueRule) :=
  match table.names.find? fun entry => entry.1 = name with
  | some entry => .ok entry
  | none =>
    let candidates := table.names.filter fun entry => name.isPrefixOf entry.1
    match candidates with
    | [] => .error (.unknownName name)
    | first :: rest =>
      if rest.all fun entry => entry.2 = first.2 then .ok first
      else .error (.ambiguous name (candidates.map Prod.fst))

/-- Reads the letters behind a hyphen, up to the first mistake. The next argument is given, and
whether it was used. -/
def readLetters (table : OptionTable) (next : Option Text) : Text → List (Text × Text) →
    List (Text × Text) × Except OptionMistake Bool
  | [], done => (done, .ok false)
  | c :: rest, done =>
    match table.letters.lookup c with
    | none => (done, .error (.unknownLetter c))
    | some .never => readLetters table next rest (done ++ [([c], [])])
    | some .perhaps => (done ++ [([c], rest)], .ok false)
    | some .always =>
      match rest, next with
      | [], none => (done, .error (.letterNeedsValue c))
      | [], some value => (done ++ [([c], value)], .ok true)
      | value, _ => (done ++ [([c], value)], .ok false)

/-- Reads what stands behind two hyphens. The next argument is given, and whether it was used. -/
def readName (table : OptionTable) (next : Option Text) (text : Text) :
    List (Text × Text) × Except OptionMistake Bool :=
  let (name, value?) := match Text.splitFirst? '=' text with
    | some (name, value) => (name, some value)
    | none => (text, none)
  match table.find name with
  | .error mistake => ([], .error mistake)
  | .ok (name, key, rule) =>
    match rule, value?, next with
    | .never, some _, _ => ([], .error (.nameTakesNone name))
    | .never, none, _ | .perhaps, none, _ => ([(key, [])], .ok false)
    | .perhaps, some value, _ | .always, some value, _ => ([(key, value)], .ok false)
    | .always, none, some value => ([(key, value)], .ok true)
    | .always, none, none => ([], .error (.nameNeedsValue name))

def readOption? (table : OptionTable) (next : Option Text) (arg : Text) :
    Option (List (Text × Text) × Except OptionMistake Bool) :=
  match if table.isWord arg then [] else arg with
  | '-' :: '-' :: text => some (table.readName next text)
  | '-' :: letter :: letters => some (table.readLetters next (letter :: letters) [])
  | _ => none

/-- Reads arguments in at most so many steps, up to the first mistake. -/
def readFrom (table : OptionTable) : Nat → List Text → Given → Given × Option OptionMistake
  | 0, _, given => (given, none)
  | _, [], given => (given, none)
  | steps + 1, arg :: rest, given =>
    if arg = ['-', '-'] && !table.isWord arg then
      ({ given with words := given.words ++ rest }, none)
    else match table.readOption? rest.head? arg with
      | some (options, outcome) =>
        let given := { given with options := given.options ++ options }
        match outcome with
        | .ok usesNext => readFrom table steps (rest.drop (if usesNext then 1 else 0)) given
        | .error mistake => (given, some mistake)
      | none =>
        if table.stopsAtWord then ({ given with words := given.words ++ arg :: rest }, none)
        else readFrom table steps rest { given with words := given.words ++ [arg] }

def read (table : OptionTable) (args : List Text) : Given × Option OptionMistake :=
  table.readFrom args.length args {}

end OptionTable

namespace Tool

/-- What is done about an option. The options before it are given. -/
abbrev OptionCheck := (before : List (Text × Text)) → (key value : Text) → Tool Unit

/-- The options and words of the program. Each option is checked before the next one is read, up to
the first mistake. -/
def givenOr (onMistake : OptionMistake → Tool Unit) (table : OptionTable) (check : OptionCheck) :
    Tool Given := do
  let (given, mistake?) := table.read (← get).args
  for ((key, value), i) in given.options.zipIdx do
    if key = "help".toList || key = "version".toList then quit 0
    check (given.options.take i) key value
  if let some mistake := mistake? then onMistake mistake
  return given

/-- The options and words of the program, where each option is checked before the next one is read.
The status is for options that it does not know. -/
def givenChecked (status : Nat) (table : OptionTable) (check : OptionCheck) : Tool Given :=
  givenOr (fun mistake => misuse status mistake.description) table check

def given (status : Nat) (table : OptionTable) : Tool Given :=
  givenChecked status table fun _ _ _ => return ()

end Tool

end FirmwareBuild.Posix
