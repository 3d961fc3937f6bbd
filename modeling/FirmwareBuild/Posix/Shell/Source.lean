import FirmwareBuild.Posix.Shell.Token

/-! # The source of a script

The text that is left of a script while it is read, with what the reader has to
remember between two tokens: the line it has come to, the aliases whose text it
is going through, and the here-documents whose text follows the present line. The
steps below go over characters; a backslash at the end of a line and the end of
the line count as nothing. -/

namespace FirmwareBuild.Posix

/-- A here-document whose text follows the present line. -/
structure DueDocument where
  number : Nat
  delimiter : Text
  isLiteral : Bool
  stripsTabs : Bool

structure OpenAlias where
  name : Text
  behind : Nat
  /-- The text ends in a blank, so that the word behind it may be an alias too. -/
  endsBlank : Bool

structure Source where
  rest : Text
  line : Nat := 1
  aliases : List (Text × Text) := []
  openAliases : List OpenAlias := []
  due : List DueDocument := []
  documents : List (Nat × Word) := []
  nextDocument : Nat := 0
  pushed : Option Token := none
  /-- The next word follows an alias that ended in a blank. -/
  followsAlias : Bool := false

/-- A step of the reader. A mistake is known with its line. -/
abbrev Reading := StateT Source (Except (Nat × ScriptMistake))

namespace Reading

def fail {α : Type} (mistake : ScriptMistake) : Reading α := do
  throw ((← get).line, mistake)

def goOver (taken rest : Text) : Reading Unit :=
  modify fun s => { s with rest, line := s.line + taken.count '\n' }

def push (token : Token) : Reading Unit := modify fun s => { s with pushed := some token }

/-- A text without continued lines in front. -/
def withoutJoins : Text → Text
  | '\\' :: '\n' :: rest => withoutJoins rest
  | rest => rest

/-- The characters in front that satisfy `p`, across continued lines, and what follows them. -/
def spanJoined (p : Char → Bool) : Text → Text × Text
  | '\\' :: '\n' :: rest => spanJoined p rest
  | [] => ([], [])
  | c :: rest =>
    if p c then
      let (taken, rest) := spanJoined p rest
      (c :: taken, rest)
    else ([], c :: rest)

def withoutBlanks : Text → Text
  | ' ' :: rest => withoutBlanks rest
  | '\t' :: rest => withoutBlanks rest
  | '\\' :: '\n' :: rest => withoutBlanks rest
  | '#' :: rest => rest.dropWhile (· != '\n')
  | rest => rest

def goTo (rest : Text) : Reading Unit := modify fun s =>
  if s.rest.length = rest.length then s
  else { s with rest, line := s.line + s.rest.count '\n' - rest.count '\n' }

def joins : Reading Unit := do goTo (withoutJoins (← get).rest)

/-- Goes over blanks, and leaves the aliases whose text is used up. -/
def blanks : Reading Unit := do
  goTo (withoutBlanks (← get).rest)
  let s ← get
  unless s.openAliases.isEmpty do
    let length := s.rest.length
    let (left, still) := s.openAliases.partition fun other => length ≤ other.behind
    set { s with openAliases := still, followsAlias := left.any OpenAlias.endsBlank }

def accept (c : Char) : Reading Bool := do
  joins
  match (← get).rest with
  | d :: rest => if c = d then goOver [d] rest; return true else return false
  | [] => return false

def takeJoined (p : Char → Bool) : Reading Text := do
  let (taken, rest) := spanJoined p (← get).rest
  goTo rest
  return taken

def within {α : Type} (text : Text) (line : Nat) (act : Reading α) : Reading α := do
  let s ← get
  set { s with
    rest := text, line, openAliases := [], due := [], pushed := none, followsAlias := false }
  let a ← act
  modify fun t => { s with documents := t.documents, nextDocument := t.nextDocument }
  return a

/-- The alias that a word stands for, unless its text is being read already. -/
def aliasOf? (name : Text) : Reading (Option Text) := do
  let s ← get
  if s.openAliases.any fun other => other.name = name then return none
  return s.aliases.lookup name

def openAlias (name value : Text) : Reading Unit := modify fun s =>
  let endsBlank := value.getLast?.any fun c => c = ' ' ∨ c = '\t'
  { s with
    rest := value ++ s.rest
    openAliases := { name, behind := s.rest.length, endsBlank } :: s.openAliases }

def redirector (stream? : Option Nat) : Reading Token := do
  if ← accept '>' then
    let stream := stream?.getD 1
    if ← accept '>' then return .redirect stream (.file .append)
    if ← accept '|' then return .redirect stream (.file .replace)
    if ← accept '&' then return .redirect stream .copy
    return .redirect stream (.file .write)
  else
    let _ ← accept '<'
    let stream := stream?.getD 0
    if ← accept '<' then return .redirect stream (.document (← accept '-'))
    if ← accept '&' then return .redirect stream .copy
    if ← accept '>' then return .redirect stream (.file .update)
    return .redirect stream (.file .read)

def sign? : Char → Reading (Option Token)
  | '&' => do
    let _ ← accept '&'
    return some (.sign (if ← accept '&' then .both else .ampersand))
  | '|' => do
    let _ ← accept '|'
    return some (.sign (if ← accept '|' then .either else .bar))
  | ';' => do
    let _ ← accept ';'
    return some (.sign (if ← accept ';' then .endOfArm else .semicolon))
  | '(' => do
    let _ ← accept '('
    return some (.sign .opening)
  | ')' => do
    let _ ← accept ')'
    return some (.sign .closing)
  | _ => return none

/-- The first line of a here-document, and what follows it. In a text that is not literal a
backslash protects the character behind it, even the end of the line. -/
def documentLine (isLiteral : Bool) : Text → Text × Option Text
  | [] => ([], none)
  | '\n' :: rest => ([], some rest)
  | '\\' :: c :: rest =>
    if isLiteral then
      let (line, rest) := documentLine isLiteral (c :: rest)
      ('\\' :: line, rest)
    else
      let (line, rest) := documentLine isLiteral rest
      ('\\' :: c :: line, rest)
  | c :: rest =>
    let (line, rest) := documentLine isLiteral rest
    (c :: line, rest)

def cutDocument (document : DueDocument) : Nat → Text → Text × Text
  | 0, text => ([], text)
  | _, [] => ([], [])
  | steps + 1, text =>
    let (line, rest) := documentLine document.isLiteral text
    let line := if document.stripsTabs then line.dropWhile (· = '\t') else line
    if line = document.delimiter then ([], rest.getD [])
    else match rest with
      | none => (line, [])
      | some rest =>
        let (more, rest) := cutDocument document steps rest
        (line ++ '\n' :: more, rest)

end Reading

end FirmwareBuild.Posix
