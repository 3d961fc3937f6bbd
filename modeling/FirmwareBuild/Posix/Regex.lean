import FirmwareBuild.Posix.Pattern

/-! # Regular expressions

Expressions that stand for the parts of lines that programs search for, in the basic
and in the extended notation. What an expression can stand for from a place on is a
set of places where it ends, each with what its groups stood for. -/

namespace FirmwareBuild.Posix

inductive Edge where
  | lineStart
  | lineEnd
  | wordStart
  | wordEnd
  | wordEdge
  | noWordEdge
  deriving DecidableEq, Repr

inductive Regex where
  | nothing
  | any
  | oneOf (negated : Bool) (members : List Member)
  | edge (edge : Edge)
  | sequence (first second : Regex)
  | choice (first second : Regex)
  | repeated (inner : Regex) (least : Nat) (most : Option Nat)
  | group (number : Nat) (inner : Regex)
  /-- What a group stood for, once more. -/
  | again (number : Nat)
  deriving Repr

inductive RegexMistake where
  | openBracket
  | openGroup
  | closedGroup
  | openBraces
  | badBraces
  | badRange
  | badClass
  | badElement
  | lonelyBracket
  | badReference
  | lastBackslash
  | bigNumber
  | nothingToRepeat
  deriving DecidableEq, Repr

def RegexMistake.description (mistake : RegexMistake) : Text :=
  String.toList <| match mistake with
  | openBracket => "Unmatched [, [^, [:, [., or [="
  | openGroup => "Unmatched ( or \\("
  | closedGroup => "Unmatched ) or \\)"
  | openBraces => "Unmatched \\\x7b"
  | badBraces => "Invalid content of \\\x7b\\\x7d"
  | badRange => "Invalid range end"
  | badClass => "Invalid character class name"
  | badElement => "Invalid collation character"
  | lonelyBracket => "Invalid regular expression"
  | badReference => "Invalid back reference"
  | lastBackslash => "Trailing backslash"
  | bigNumber => "Regular expression too big"
  | nothingToRepeat => "Invalid preceding regular expression"

namespace Regex

/-! ## Reading -/

/-- A sign of an expression, where backslashes are taken into account. -/
inductive Sign where
  | plain (c : Char)
  | any
  | set (negated : Bool) (members : List Member)
  | openGroup
  | closeGroup
  | choice
  | star
  | plus
  | question
  | braces (least : Nat) (most : Option Nat)
  | hat
  | dollar
  | edge (edge : Edge)
  | again (number : Nat)
  deriving Repr

def wordMembers : List Member := [.named "alnum", .range '_' '_']

/-- What stands between brackets behind the opening one, in at most so many steps. -/
def readMembers : Nat → (isFirst : Bool) → Text → Except RegexMistake (List Member × Text)
  | 0, _, _ | _, _, [] => .error .openBracket
  | steps + 1, isFirst, c :: rest => do
    if c = ']' && !isFirst then return ([], rest)
    let classAt? : Option (Text × Text) :=
      if c = '[' && rest.head? = some ':' then
        let name := rest.tail.takeWhile fun c => c ≠ ':' && c ≠ ']'
        match rest.tail.drop name.length with
        | ':' :: ']' :: more => some (name, more)
        | _ => none
      else none
    match classAt? with
    | some (name, more) =>
      if (CharacterClass.all.lookup (String.ofList name)).isNone then .error .badClass
      let (members, after) ← readMembers steps false more
      return (.named (String.ofList name) :: members, after)
    | none =>
      if c = '[' && rest.head? = some ':' then .error .openBracket
      if c = '[' && isLongElement rest then .error .badElement
      let (low, rest) ← single c rest
      match rest with
      | '-' :: d :: more =>
        if d = ']' then
          let (members, after) ← readMembers steps false rest
          return (.range low low :: members, after)
        let (high, more) ← single d more
        if high < low then .error .badRange
        let (members, after) ← readMembers steps false more
        return (.range low high :: members, after)
      | rest =>
        let (members, after) ← readMembers steps false rest
        return (.range low low :: members, after)
where
  /-- Whether brackets inside hold something that is not one character. -/
  isLongElement (rest : Text) : Bool :=
    match rest with
    | sign :: _ :: inside =>
      (sign = '.' || sign = '=') && Text.holds [sign, ']'] inside && inside.take 2 ≠ [sign, ']']
    | _ => false
  single (c : Char) (rest : Text) : Except RegexMistake (Char × Text) :=
    match c, rest with
    | '[', '.' :: d :: '.' :: ']' :: more => .ok (d, more)
    | '[', '=' :: d :: '=' :: ']' :: more => .ok (d, more)
    | c, rest => .ok (c, rest)

def readBraces? (text : Text) : Option (Nat × Option Nat × Text) :=
  let low := text.takeWhile Char.isDigit
  let rest := text.drop low.length
  let least := (Numeral.ofDigits? 10 low).getD 0
  match rest with
  | ',' :: rest =>
    let high := rest.takeWhile Char.isDigit
    some (least, Numeral.ofDigits? 10 high, rest.drop high.length)
  | rest => if low.isEmpty then none else some (least, some least, rest)

/-- What a letter behind a backslash means in either notation. -/
def escapeSign? : Char → Option Sign
  | 'w' => some (.set false wordMembers)
  | 'W' => some (.set true wordMembers)
  | 's' => some (.set false [.named "space"])
  | 'S' => some (.set true [.named "space"])
  | 'b' => some (.edge .wordEdge)
  | 'B' => some (.edge .noWordEdge)
  | '<' => some (.edge .wordStart)
  | '>' => some (.edge .wordEnd)
  | '\x60' => some (.edge .lineStart)
  | '\'' => some (.edge .lineEnd)
  | _ => none

def operator? (isExtended : Bool) (c : Char) (rest : Text) :
    Except RegexMistake (Option (Sign × Text)) :=
  match c with
  | '(' => .ok (some (.openGroup, rest))
  | ')' => .ok (some (.closeGroup, rest))
  | '|' => .ok (some (.choice, rest))
  | '+' => .ok (some (.plus, rest))
  | '?' => .ok (some (.question, rest))
  | '\x7b' =>
    let ending? (rest : Text) : Option Text :=
      if isExtended then Text.dropStart? ['\x7d'] rest else Text.dropStart? ['\\', '\x7d'] rest
    match (readBraces? rest).bind fun (least, most, rest) =>
        (ending? rest).map (least, most, ·) with
    | some (least, most, rest) =>
      if most.any (· < least) then .error .badBraces
      else if 32767 < max least (most.getD 0) then .error .bigNumber
      else .ok (some (.braces least most, rest))
    | none => if isExtended then .ok none else
        if rest.all fun c => c.isDigit || c == ',' then .error .openBraces else .error .badBraces
  | _ => .ok none

def signs (isExtended : Bool) : Nat → Text → Except RegexMistake (List Sign)
  | 0, _ | _, [] => .ok []
  | steps + 1, c :: rest => do
    let go (sign : Sign) (rest : Text) : Except RegexMistake (List Sign) :=
      (signs isExtended steps rest).map (sign :: ·)
    match c with
    | '\\' =>
      match rest with
      | [] => .error .lastBackslash
      | d :: more =>
        if d.isDigit && d ≠ '0' then go (.again (d.toNat - '0'.toNat)) more
        else match escapeSign? d with
          | some sign => go sign more
          | none =>
            match if isExtended then .ok none else operator? false d more with
            | .error mistake => .error mistake
            | .ok (some (sign, after)) => go sign after
            | .ok none => go (.plain d) more
    | '.' => go .any rest
    | '*' => go .star rest
    | '^' => go .hat rest
    | '$' => go .dollar rest
    | '[' =>
      let (negated, inside) := match rest with
        | '^' :: inside => (true, inside)
        | inside => (false, inside)
      if inside.isEmpty then .error .lonelyBracket
      let (members, after) ← readMembers (inside.length + 1) true inside
      go (.set negated members) after
    | c =>
      match if isExtended then operator? true c rest else .ok none with
      | .error mistake => .error mistake
      | .ok (some (sign, after)) => go sign after
      | .ok none => go (.plain c) rest

/-- An expression that is read up to its end or to the end of its group, with the signs behind it
and the number of groups that were opened. -/
structure Reading where
  regex : Regex
  rest : List Sign
  groups : Nat

def isAlternativeEnd : List Sign → Bool
  | [] | .closeGroup :: _ | .choice :: _ => true
  | _ => false

def repetition? : Sign → Option (Nat × Option Nat)
  | .star => some (0, none)
  | .plus => some (1, none)
  | .question => some (0, some 1)
  | .braces least most => some (least, most)
  | _ => none

def withRepetitions (regex : Regex) : List Sign → Regex × List Sign
  | [] => (regex, [])
  | sign :: rest =>
    match repetition? sign with
    | some (least, most) => withRepetitions (.repeated regex least most) rest
    | none => (regex, sign :: rest)

mutual

def readChoice (isExtended : Bool) : Nat → (depth groups : Nat) → List Sign →
    Except RegexMistake Reading
  | 0, _, groups, rest => .ok { regex := .nothing, rest, groups }
  | steps + 1, depth, groups, rest => do
    let first ← readSequence isExtended steps depth groups true rest
    match first.rest with
    | .choice :: rest =>
      let second ← readChoice isExtended steps depth first.groups rest
      return { second with regex := .choice first.regex second.regex }
    | _ => return first

/-- Reads what stands in a row. At the start, some signs mean themselves in the basic notation. -/
def readSequence (isExtended : Bool) : Nat → (depth groups : Nat) → (isFirst : Bool) →
    List Sign → Except RegexMistake Reading
  | 0, _, groups, _, rest => .ok { regex := .nothing, rest, groups }
  | _, _, groups, _, [] => .ok { regex := .nothing, rest := [], groups }
  | steps + 1, depth, groups, isFirst, sign :: rest => do
    let literal (c : Char) : Regex := .oneOf false [.range c c]
    let more (regex : Regex) (rest : List Sign) (groups : Nat) (isFirst : Bool) :
        Except RegexMistake Reading := do
      let (regex, rest) := if isFirst then (regex, rest) else withRepetitions regex rest
      let others ← readSequence isExtended steps depth groups isFirst rest
      return { others with regex := .sequence regex others.regex }
    match sign with
    | .choice => return { regex := .nothing, rest := sign :: rest, groups }
    | .closeGroup =>
      if depth = 0 then
        if isExtended then more (literal ')') rest groups false else .error .closedGroup
      else return { regex := .nothing, rest := sign :: rest, groups }
    | .openGroup =>
      let inner ← readChoice isExtended steps (depth + 1) (groups + 1) rest
      match inner.rest with
      | .closeGroup :: rest => more (.group (groups + 1) inner.regex) rest inner.groups false
      | _ => .error .openGroup
    | .plain c => more (literal c) rest groups false
    | .any => more .any rest groups false
    | .set negated members => more (.oneOf negated members) rest groups false
    | .edge kind => more (.edge kind) rest groups false
    | .again number =>
      if groups < number then .error .badReference else more (.again number) rest groups false
    | .hat =>
      if isExtended then more (.edge .lineStart) rest groups false
      else if isFirst then more (.edge .lineStart) rest groups true
      else more (literal '^') rest groups false
    | .dollar =>
      if isExtended || isAlternativeEnd rest then more (.edge .lineEnd) rest groups false
      else more (literal '$') rest groups false
    | .star =>
      if isExtended then more .nothing rest groups false
      else more (literal '*') rest groups false
    | .plus | .question | .braces _ _ =>
      if isExtended then more .nothing rest groups false
      else match sign with
        | .plus => more (literal '+') rest groups false
        | .question => more (literal '?') rest groups false
        | _ => .error .nothingToRepeat

end

def read (isExtended : Bool) (text : Text) : Except RegexMistake Regex := do
  let signs ← signs isExtended (text.length + 1) text
  let reading ← readChoice isExtended (4 * signs.length + 4) 0 0 signs
  return reading.regex

def ofText (text : Text) : Regex :=
  text.foldr (fun c rest => .sequence (.oneOf false [.range c c]) rest) .nothing

/-! ## Matching -/

structure Subject where
  line : Array Char
  /-- Letters count as equal to their other case. -/
  ignoresCase : Bool

/-- Where an expression ended, with the places of what its groups stood for. -/
structure Reached where
  place : Nat
  groups : List (Nat × Nat × Nat) := []
  deriving DecidableEq, Repr

def isWordChar (c : Char) : Bool := c.isAlphanum || c == '_'

namespace Subject

def isWordAt (subject : Subject) (place : Nat) : Bool := subject.line[place]?.any isWordChar

def isWordBefore (subject : Subject) (place : Nat) : Bool :=
  place != 0 && subject.isWordAt (place - 1)

def holds (subject : Subject) (place : Nat) : Edge → Bool
  | .lineStart => place == 0
  | .lineEnd => place == subject.line.size
  | .wordStart => !subject.isWordBefore place && subject.isWordAt place
  | .wordEnd => subject.isWordBefore place && !subject.isWordAt place
  | .wordEdge => subject.isWordBefore place != subject.isWordAt place
  | .noWordEdge => subject.isWordBefore place == subject.isWordAt place

def isIn (subject : Subject) (members : List Member) (c : Char) : Bool :=
  members.any (Member.holds c) ||
    (subject.ignoresCase &&
      (members.any (Member.holds c.toLower) || members.any (Member.holds c.toUpper)))

/-- Whether two stretches of the line are equal. -/
def isSame (subject : Subject) (a b length : Nat) : Bool :=
  (List.range length).all fun i =>
    match subject.line[a + i]?, subject.line[b + i]? with
    | some c, some d => c == d || (subject.ignoresCase && c.toLower == d.toLower)
    | _, _ => false

end Subject

/-- Does something again and again to what was reached, as long as something new is reached, in at
most so many turns. -/
def closure (step : List Reached → List Reached) : Nat → (new all : List Reached) → List Reached
  | 0, _, all => all
  | turns + 1, new, all =>
    let next := (step new).filter fun reached => !all.contains reached
    if next.isEmpty then all else closure step turns next (all ++ next)

def times (step : List Reached → List Reached) : Nat → List Reached → List Reached
  | 0, all => all
  | n + 1, all => times step n (step all)

/-- Does something at most so many times, as long as something new is reached. -/
def upTo (step : List Reached → List Reached) : Nat → (new all : List Reached) → List Reached
  | 0, _, all => all
  | n + 1, new, all =>
    let next := (step new).filter fun reached => !all.contains reached
    if next.isEmpty then all else upTo step n next (all ++ next)

/-- Everything that an expression reaches from places. -/
def ends (subject : Subject) (tracks : Bool) : Regex → List Reached → List Reached
  | nothing, before => before
  | any, before =>
    before.filterMap fun reached =>
      if reached.place < subject.line.size then some { reached with place := reached.place + 1 }
      else none
  | oneOf negated members, before =>
    before.filterMap fun reached =>
      (subject.line[reached.place]?).bind fun c =>
        if subject.isIn members c != negated then some { reached with place := reached.place + 1 }
        else none
  | edge kind, before => before.filter fun reached => subject.holds reached.place kind
  | sequence first second, before =>
    ends subject tracks second (ends subject tracks first before)
  | choice first second, before =>
    (ends subject tracks first before ++ ends subject tracks second before).eraseDups
  | repeated inner least most, before =>
    let start := times (ends subject tracks inner) least before
    match most with
    | some most => upTo (ends subject tracks inner) (most - least) start start
    | none => closure (ends subject tracks inner) (subject.line.size + 1) start start
  | group number inner, before =>
    if !tracks then ends subject tracks inner before
    else
      (before.flatMap fun reached =>
        (ends subject tracks inner [reached]).map fun after =>
          { after with
            groups := (number, reached.place, after.place) ::
              after.groups.filter fun entry => entry.1 ≠ number }).eraseDups
  | again number, before =>
    before.filterMap fun reached =>
      (reached.groups.lookup number).bind fun (start, stop) =>
        if subject.isSame start reached.place (stop - start) then
          some { reached with place := reached.place + (stop - start) }
        else none

def refersBack : Regex → Bool
  | again _ => true
  | sequence first second | choice first second => first.refersBack || second.refersBack
  | repeated inner _ _ | group _ inner => inner.refersBack
  | _ => false

def endsFrom (regex : Regex) (subject : Subject) (start : Nat) : List Nat :=
  (ends subject regex.refersBack regex [{ place := start }]).map Reached.place

end Regex

end FirmwareBuild.Posix
