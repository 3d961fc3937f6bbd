import FirmwareBuild.Posix.Shell.Source

/-! # Reading shell scripts

The grammar of the POSIX shell. A shell runs each line of commands before it reads
the next, so an alias holds from the next line on, and a mistake in a script shows
only when the lines before it have run; `Source.nextLine` reads one line. Every
step of the reader takes one from its fuel, and the fuel is more than the rest of
a script and its aliases can use up. -/

namespace FirmwareBuild.Posix

namespace Reading

inductive Place where
  | bare
  /-- In the delimiter of a here-document, where nothing is expanded. -/
  | delimiter
  /-- In double quotes, perhaps where nothing is expanded. -/
  | quotes (isLiteral : Bool)
  | document
  /-- In the braces of a parameter, which may be in double quotes, and perhaps in quotes again. -/
  | braces (quoted inner : Bool)
  /-- In an arithmetic expression, with so many parentheses around. -/
  | arithmetic (depth : Nat)
  deriving DecidableEq

namespace Place

def ends : Place → Char → Bool
  | bare, c | delimiter, c =>
    c ∈ [' ', '\t', '\n', ';', '&', '|', '<', '>', '(', ')']
  | quotes _, c => c == '"'
  | braces _ inner, c => c == '\x7d' && !inner
  | document, _ | arithmetic _, _ => false

def isSpecial (place : Place) (c : Char) : Bool :=
  c ∈ ['\'', '"', '\\', '$', '\x60'] || place.ends c ||
    match place with
    | arithmetic _ => c == '(' || c == ')'
    | _ => false

/-- Whether the rules of double quotes hold at a place. -/
def isQuoted : Place → Bool
  | bare | delimiter | braces false _ => false
  | quotes _ | document | arithmetic _ | braces true _ => true

def isLiteral : Place → Bool
  | delimiter | quotes true => true
  | _ => false

/-- What a backslash in front of a character stands for. In double quotes it stays where the
character would mean nothing. -/
def protect (place : Place) (c : Char) : Text :=
  let means : Bool := match place with
    | quotes _ | arithmetic _ => c ∈ ['$', '\x60', '\\', '"']
    | document => c ∈ ['$', '\x60', '\\']
    | braces true _ => c ∈ ['$', '\x60', '\\', '"', '\x7d']
    | _ => true
  if means then [c] else ['\\', c]

def mistake? : Place → Option ScriptMistake
  | bare | delimiter | document => none
  | quotes _ | braces true _ => some .openQuotes
  | braces false _ => some .openBraces
  | arithmetic _ => some .openArithmetic

/-- Where the word stands that belongs to a parameter in braces at a place. A pattern follows its
own quotes. -/
def within (place : Place) : ParameterUse → Place
  | .dropStart _ | .dropEnd _ => braces false false
  | _ => braces place.isQuoted false

end Place

/-- A part in front of others. Characters that mean nothing stay together. -/
def consPart : Part → Word → Word
  | .plain text, .plain more :: rest => .plain (text ++ more) :: rest
  | part, rest => part :: rest

/-- What stands before the closing backquote, with the backslashes that protect characters from
it taken away, and what stands behind it. -/
def cutBackquotes (quoted : Bool) : Text → Option (Text × Text)
  | [] => none
  | '\x60' :: rest => some ([], rest)
  | '\\' :: '\n' :: rest => cutBackquotes quoted rest
  | '\\' :: c :: rest =>
    let keeps := c ∈ ['$', '\x60', '\\'] || quoted && c == '"'
    (cutBackquotes quoted rest).map fun (inside, rest) =>
      (if keeps then c :: inside else '\\' :: c :: inside, rest)
  | c :: rest => (cutBackquotes quoted rest).map fun (inside, rest) => (c :: inside, rest)

def isSpecialParameter (c : Char) : Bool :=
  c.isDigit || c ∈ ['@', '*', '#', '?', '-', '$', '!']

/-- The name of a parameter in braces, if it begins with a letter or a digit. -/
def wordyParameter? : Reading (Option Text) := do
  joins
  match (← get).rest with
  | [] => return none
  | c :: _ =>
    if startsName c then return some (← takeJoined inName)
    else if c.isDigit then return some (← takeJoined Char.isDigit)
    else return none

def parameterUse : Reading ParameterUse := do
  if ← accept '%' then return .dropEnd (← accept '%')
  if ← accept '#' then return .dropStart (← accept '#')
  let orEmpty ← accept ':'
  if ← accept '-' then return .default orEmpty
  if ← accept '=' then return .assign orEmpty
  if ← accept '+' then return .alternative orEmpty
  if ← accept '?' then return .require orEmpty
  joins
  match (← get).rest with
  | c :: rest =>
    if orEmpty then goOver [c] rest
    return if c = '\x7d' ∧ !orEmpty then .value else .unknown
  | [] => return .unknown

/-- The name of a parameter in braces, and what is done with it. The brace that closes an
unchanged value or a length is left. -/
def bracedParameter : Reading (Text × ParameterUse) := do
  if let some name ← wordyParameter? then return (name, ← parameterUse)
  match (← get).rest with
  | [] => return ([], .unknown)
  | c :: rest =>
    if c = '\x7d' then return ([], .unknown)
    goOver [c] rest
    if c = '#' then
      if let some name ← wordyParameter? then return (name, ← lengthUse)
      joins
      match (← get).rest with
      | d :: rest =>
        if d ≠ '\x7d' ∧ (withoutJoins rest).head? = some '\x7d' then
          goOver [d] rest
          return ([d], if isSpecialParameter d then .length else .unknown)
      | [] => pure ()
    if isSpecialParameter c then return ([c], ← parameterUse) else return ([], .unknown)
where
  /-- The length of a value is all that can be asked for. -/
  lengthUse : Reading ParameterUse := do
    joins
    return if (← get).rest.head? = some '\x7d' then .length else .unknown

def assignment? : Word → Option (Text × Word)
  | .plain text :: parts =>
    match Text.splitFirst? '=' text with
    | some (name, value) =>
      if isName name then some (name, if value.isEmpty then parts else .plain value :: parts)
      else none
    | none => none
  | _ => none

/-- The characters of a word that is not expanded, and whether there are quotes in it. -/
def literalText : Word → Text × Bool
  | [] => ([], false)
  | .plain text :: rest =>
    let (more, quoted) := literalText rest
    (text ++ more, quoted)
  | .quoted text :: rest => (text ++ (literalText rest).1, true)
  | .doubleQuoted parts :: rest => ((literalText parts).1 ++ (literalText rest).1, true)
  | _ :: rest => literalText rest

def inSequence : List Script → Script
  | [command] => command
  | commands => .sequence commands

/-- What is looked for in the place of a token. -/
structure Wanted where
  /-- Ends of lines count as nothing. -/
  acrossLines : Bool := false
  reserved : Bool := false
  aliases : Bool := false

/-- What is looked for where a command has to begin. -/
def commandStart : Wanted := { acrossLines := true, reserved := true, aliases := true }

/-- What is looked for where a command may begin on the same line. -/
def sameLine : Wanted := { reserved := true, aliases := true }

mutual

def parts : Nat → Place → Reading Word
  | 0, _ => fail .openQuotes
  | fuel + 1, place => do
    joins
    match (← get).rest with
    | [] =>
      match place.mistake? with
      | some mistake => fail mistake
      | none => return []
    | c :: rest =>
      if place.ends c then return []
      match c with
      | '\\' =>
        match rest with
        | [] => goOver [c] []; return consPart (.quoted [c]) (← parts fuel place)
        | d :: more =>
          goOver [c, d] more
          return consPart (.quoted (place.protect d)) (← parts fuel place)
      | '\'' =>
        if place.isQuoted then plainPart fuel place
        else match Text.splitFirst? '\'' rest with
          | some (inside, more) =>
            goOver inside more
            return consPart (.quoted inside) (← parts fuel place)
          | none => goOver rest []; fail .openQuotes
      | '"' =>
        match place with
        | .document | .arithmetic _ => plainPart fuel place
        | .braces true inner => goOver [c] rest; parts fuel (.braces true !inner)
        | _ =>
          goOver [c] rest
          let inside ← parts fuel (.quotes place.isLiteral)
          let _ ← accept '"'
          return consPart (.doubleQuoted inside) (← parts fuel place)
      | '\x60' =>
        if place.isLiteral then plainPart fuel place
        else match cutBackquotes place.isQuoted rest with
          | none => goOver rest []; fail .openBackquotes
          | some (inside, more) =>
            let body ← within inside 1 (commands fuel true)
            goTo more
            return consPart (.output (inSequence body)) (← parts fuel place)
      | '$' =>
        if place.isLiteral then plainPart fuel place
        else
          goOver [c] rest
          let part ← dollar fuel place
          return consPart part (← parts fuel place)
      | _ =>
        match place with
        | .arithmetic depth =>
          if c = '(' then
            goOver [c] rest
            return consPart (.plain [c]) (← parts fuel (.arithmetic (depth + 1)))
          else if c = ')' then
            goOver [c] rest
            match depth with
            | depth + 1 => return consPart (.plain [c]) (← parts fuel (.arithmetic depth))
            | 0 =>
              if ← accept ')' then return []
              return consPart (.plain [c]) (← parts fuel place)
          else plainPart fuel place
        | _ => plainPart fuel place

def plainPart : Nat → Place → Reading Word
  | 0, _ => fail .openQuotes
  | fuel + 1, place => do
    match (← get).rest with
    | [] => parts fuel place
    | c :: rest =>
      let taken := rest.takeWhile fun d => !place.isSpecial d
      goOver (c :: taken) (rest.drop taken.length)
      return consPart (.plain (c :: taken)) (← parts fuel place)

def dollar : Nat → Place → Reading Part
  | 0, _ => fail .openQuotes
  | fuel + 1, place => do
    if ← accept '(' then
      if ← accept '(' then return .arithmetic (← parts fuel (.arithmetic 0))
      let due := (← get).due
      modify fun s => { s with due := [] }
      let body ← commands fuel true
      expect fuel {} (.sign .closing)
      modify fun s =>
        let empty := s.due.map fun document => (document.number, [])
        { s with due, documents := empty ++ s.documents }
      return .output (inSequence body)
    if ← accept '\x7b' then
      let (name, use) ← bracedParameter
      if use ≠ .value ∧ use ≠ .length then
        let word ← parts fuel (place.within use)
        let _ ← accept '\x7d'
        return .parameter name use word
      if ← accept '\x7d' then return .parameter name use []
      fail .openBraces
    joins
    match (← get).rest with
    | [] => return .plain ['$']
    | c :: rest =>
      if startsName c then return .parameter (← takeJoined inName) .value []
      if isSpecialParameter c then
        goOver [c] rest
        return .parameter [c] .value []
      return .plain ['$']

/-- A token that was not looked at yet, in which a word stands at a place. -/
def freshToken : Nat → Place → Reading Token
  | 0, _ => fail .openQuotes
  | fuel + 1, place => do
    blanks
    match (← get).rest with
    | [] => return .finish
    | '\n' :: rest => goOver ['\n'] rest; return .newline
    | c :: rest =>
      if let some token ← sign? c then return token
      if c = '<' ∨ c = '>' then return ← redirector none
      if c.isDigit then
        if let some d := (withoutJoins rest).head? then
          if d = '<' ∨ d = '>' then
            goOver [c] rest
            return ← redirector (some (c.toNat - '0'.toNat))
      return .word (← parts fuel place)

def token : Nat → Wanted → Reading Token
  | 0, _ => return .finish
  | fuel + 1, wanted => do
    let next ← do
      match (← get).pushed with
      | some token => modify fun s => { s with pushed := none }; pure token
      | none => freshToken fuel .bare
    match next with
    | .newline =>
      if wanted.acrossLines then
        documents fuel
        token fuel wanted
      else return next
    | .word [.plain text] =>
      let aliases := wanted.aliases || (← get).followsAlias
      modify fun s => { s with followsAlias := false }
      let name := String.ofList text
      if wanted.reserved && reservedWords.contains name then return .reserved name
      if aliases then
        if let some value ← aliasOf? text then
          openAlias text value
          return ← token fuel { wanted with aliases := true }
      return next
    | _ => return next

def expect : Nat → Wanted → Token → Reading Unit
  | 0, _, _ => fail .openQuotes
  | fuel + 1, wanted, expected => do
    let found ← token fuel wanted
    if found.description ≠ expected.description then
      fail (.unexpected found.description (some expected.description))

/-- The texts of the here-documents that are due. -/
def documents : Nat → Reading Unit
  | 0 => fail .openQuotes
  | fuel + 1 => do
    match (← get).due with
    | [] => return ()
    | document :: due =>
      let s ← get
      let (text, rest) := cutDocument document (s.rest.length + 1) s.rest
      let word ←
        if document.isLiteral then pure [.quoted text]
        else within text s.line (parts fuel .document)
      goTo rest
      modify fun s => { s with due, documents := (document.number, word) :: s.documents }
      documents fuel

def redirect : Nat → (stream : Nat) → Redirector → Reading Redirect
  | 0, _, _ => fail .openQuotes
  | fuel + 1, stream, redirector => do
    let place := match redirector with
      | .document _ => Place.delimiter
      | _ => .bare
    let next ← freshToken fuel place
    let .word word := next | fail (.unexpected next.description none)
    match redirector with
    | .file mode => return .file stream mode word
    | .copy => return .copy stream word
    | .document stripsTabs =>
      let (delimiter, isLiteral) := literalText word
      let number := (← get).nextDocument
      modify fun s =>
        { s with
          due := s.due ++ [{ number, delimiter, isLiteral, stripsTabs }]
          nextDocument := number + 1 }
      return .document stream number

def redirects : Nat → Reading (List Redirect)
  | 0 => fail .openQuotes
  | fuel + 1 => do
    match ← token fuel sameLine with
    | .redirect stream redirector =>
      let first ← redirect fuel stream redirector
      return first :: (← redirects fuel)
    | next => push next; return []

/-- What is left of a simple command whose words and redirections so far are given. -/
def simple : Nat → (line : Nat) → List (Text × Word) → List Word → List Redirect → Reading Script
  | 0, _, _, _, _ => fail .openQuotes
  | fuel + 1, line, assigned, given, opened => do
    match ← token fuel { aliases := given.isEmpty } with
    | .word word =>
      match if given.isEmpty then assignment? word else none with
      | some assignment => simple fuel line (assigned ++ [assignment]) given opened
      | none => simple fuel line assigned (given ++ [word]) opened
    | .redirect stream redirector =>
      simple fuel line assigned given (opened ++ [← redirect fuel stream redirector])
    | .sign .opening =>
      match assigned, given, opened with
      | [], [word], [] =>
        expect fuel {} (.sign .closing)
        let [.plain name] := word | fail .functionName
        if !isName name || specialCommands.contains name then fail .functionName
        return .define name (← command fuel commandStart)
      | _, _, _ => push (.sign .opening); return .simple line assigned given opened
    | next => push next; return .simple line assigned given opened

def command : Nat → Wanted → Reading Script
  | 0, _ => fail .openQuotes
  | fuel + 1, wanted => do
    let line := (← get).line
    let next ← token fuel wanted
    let body ← do
      match next with
      | .sign .opening =>
        let body ← commands fuel false
        expect fuel {} (.sign .closing)
        return .subshell line (inSequence body) (← redirects fuel)
      | .reserved "\x7b" =>
        let body ← commands fuel false
        expect fuel {} (.reserved "\x7d")
        pure (inSequence body)
      | .reserved "if" =>
        let body ← branch fuel
        expect fuel {} (.reserved "fi")
        pure body
      | .reserved "while" => loop fuel false
      | .reserved "until" => loop fuel true
      | .reserved "for" => each fuel line
      | .reserved "case" =>
        let next ← token fuel {}
        let .word subject := next | fail (.unexpected next.description (some "word".toList))
        expect fuel commandStart (.reserved "in")
        pure (.choose line subject (← arms fuel))
      | .word _ | .redirect _ _ =>
        push next
        return ← simple fuel (← get).line [] [] []
      | _ => fail (.unexpected next.description none)
    let opened ← redirects fuel
    return if opened.isEmpty then body else .redirected line body opened

def branch : Nat → Reading Script
  | 0 => fail .openQuotes
  | fuel + 1 => do
    let condition ← commands fuel false
    expect fuel {} (.reserved "then")
    let body ← commands fuel false
    let otherwise ← do
      match ← token fuel {} with
      | .reserved "elif" => branch fuel
      | .reserved "else" => pure (inSequence (← commands fuel false))
      | next => push next; pure .nothing
    return .branch (inSequence condition) (inSequence body) otherwise

def loop : Nat → (untilSuccess : Bool) → Reading Script
  | 0, _ => fail .openQuotes
  | fuel + 1, untilSuccess => do
    let condition ← commands fuel false
    expect fuel {} (.reserved "do")
    let body ← commands fuel false
    expect fuel {} (.reserved "done")
    return .loop untilSuccess (inSequence condition) (inSequence body)

/-- A name with the words it goes through and the command that is repeated. Without words it goes
through the arguments. -/
def each : Nat → (line : Nat) → Reading Script
  | 0, _ => fail .openQuotes
  | fuel + 1, line => do
    let .word [.plain name] ← token fuel {} | fail .loopVariable
    unless isName name do fail .loopVariable
    let through ← do
      match ← token fuel commandStart with
      | .reserved "in" => eachWord fuel
      | .sign .semicolon => pure [[.doubleQuoted [.parameter ['@'] .value []]]]
      | next =>
        push next
        pure [[.doubleQuoted [.parameter ['@'] .value []]]]
    expect fuel commandStart (.reserved "do")
    let body ← commands fuel false
    expect fuel {} (.reserved "done")
    return .each line name through (inSequence body)

def eachWord : Nat → Reading (List Word)
  | 0 => fail .openQuotes
  | fuel + 1 => do
    match ← token fuel {} with
    | .word word => return word :: (← eachWord fuel)
    | .newline => documents fuel; return []
    | .sign .semicolon => return []
    | next => fail (.unexpected next.description none)

def arms : Nat → Reading (List (List Word × Script))
  | 0 => fail .openQuotes
  | fuel + 1 => do
    let first ← token fuel { acrossLines := true, reserved := true }
    if let .reserved "esac" := first then return []
    let first ← match first with
      | .sign .opening => token fuel {}
      | _ => pure first
    let patterns ← alternatives fuel first
    let body ← commands fuel true
    match ← token fuel { acrossLines := true, reserved := true } with
    | .reserved "esac" => return [(patterns, inSequence body)]
    | .sign .endOfArm => return (patterns, inSequence body) :: (← arms fuel)
    | next => fail (.unexpected next.description (some (Token.sign .endOfArm).description))

/-- Patterns with bars between them, the first of which is given, up to a parenthesis. -/
def alternatives : Nat → Token → Reading (List Word)
  | 0, _ => fail .openQuotes
  | fuel + 1, first => do
    let pattern := match first with
      | .word word => word
      | .reserved name => [.plain name.toList]
      | _ => []
    match ← token fuel {} with
    | .sign .bar => return pattern :: (← alternatives fuel (← token fuel {}))
    | .sign .closing => return [pattern]
    | next => fail (.unexpected next.description (some (Token.sign .closing).description))

def stages : Nat → Wanted → Reading (List Script)
  | 0, _ => fail .openQuotes
  | fuel + 1, wanted => do
    let first ← command fuel wanted
    match ← token fuel {} with
    | .sign .bar => return first :: (← stages fuel commandStart)
    | next => push next; return [first]

def pipeline : Nat → Wanted → Reading Script
  | 0, _ => fail .openQuotes
  | fuel + 1, wanted => do
    let piped : List Script → Script
      | [only] => only
      | all => .pipeline all
    match ← token fuel wanted with
    | .reserved "!" => return .negate (piped (← stages fuel sameLine))
    | next => push next; return piped (← stages fuel {})

def chain : Nat → Script → Reading Script
  | 0, _ => fail .openQuotes
  | fuel + 1, first => do
    match ← token fuel {} with
    | .sign .both => chain fuel (.both first (← pipeline fuel commandStart))
    | .sign .either => chain fuel (.either first (← pipeline fuel commandStart))
    | next => push next; return first

def commands : Nat → (mayBeMissing : Bool) → Reading (List Script)
  | 0, _ => fail .openQuotes
  | fuel + 1, mayBeMissing => do
    let next ← token fuel commandStart
    push next
    if let .finish := next then documents fuel; return []
    if mayBeMissing && next.closes then return []
    let first ← chain fuel (← pipeline fuel {})
    match ← token fuel {} with
    | .sign .ampersand => return .background first :: (← commands fuel true)
    | .sign .semicolon => return first :: (← commands fuel true)
    | .newline => push .newline; return first :: (← commands fuel true)
    | .finish => documents fuel; push .finish; return [first]
    | next => push next; return [first]

def lineCommands : Nat → Reading (List Script)
  | 0 => fail .openQuotes
  | fuel + 1 => do
    match ← token fuel sameLine with
    | .newline => documents fuel; return []
    | .finish => documents fuel; push .finish; return []
    | next =>
      push next
      let first ← chain fuel (← pipeline fuel {})
      match ← token fuel {} with
      | .sign .ampersand => return .background first :: (← lineCommands fuel)
      | .sign .semicolon => return first :: (← lineCommands fuel)
      | .newline => documents fuel; return [first]
      | .finish => documents fuel; push .finish; return [first]
      | next => fail (.unexpected next.description none)

end

end Reading

namespace Source

def fuel (source : Source) : Nat :=
  16 * (source.rest.length + 64) * (1 + Text.total (source.aliases.map fun entry => entry.2.length))

def isFinished (source : Source) : Bool :=
  match source.pushed with
  | some .finish => true
  | _ => false

/-- The commands of the next line, and what is left then. There are none at the end. -/
def nextLine (source : Source) :
    Except (Nat × ScriptMistake) (Option (List Script) × Source) := do
  let (commands, left) ← (Reading.lineCommands source.fuel).run { source with documents := [] }
  return (if commands.isEmpty && left.isFinished then none else some commands, left)

/-- The word that a text is where the rules of here-documents hold. -/
def document (text : Text) : Option Word :=
  let source : Source := { rest := text }
  ((Reading.parts source.fuel .document).run source).toOption.map Prod.fst

end Source

end FirmwareBuild.Posix
