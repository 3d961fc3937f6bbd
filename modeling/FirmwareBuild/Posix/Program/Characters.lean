import FirmwareBuild.Posix.CharacterClass
import FirmwareBuild.Posix.Program.Source

/-! # Replacing characters

A program that replaces or deletes characters of its input, or puts runs of one
character together. Sets of characters are lists of elements: characters, ranges,
classes and repetitions. -/

namespace FirmwareBuild.Posix.Program

open Tool

def allOctets : Text := (List.range 256).map Char.ofNat

inductive SetElement where
  | single (c : Char)
  | range (first last : Char)
  | named (name : String)
  /-- The characters that count as one with a character, which is only itself. -/
  | equivalent (c : Char)
  /-- A character so many times, or as often as there is need to. -/
  | repeated (c : Char) (count : Option Nat)
  deriving DecidableEq, Repr

namespace SetElement

def characters : SetElement → Text
  | single c | equivalent c => [c]
  | range first last => allOctets.filter fun c => first ≤ c && c ≤ last
  | named name => allOctets.filter (CharacterClass.holds name)
  | repeated c count => List.replicate (count.getD 0) c

/-- Whether an element is one of the two classes of letters by case. -/
def isCase : SetElement → Bool
  | named name => name == "upper" || name == "lower"
  | _ => false

def isNamed : SetElement → Bool
  | named _ => true
  | _ => false

/-- Whether an element fills up what is lacking. -/
def isEndless : SetElement → Bool
  | repeated _ none => true
  | _ => false

end SetElement

/-- A character of a set as it is written, and whether it has no special meaning. -/
abbrev SetCharacter := Char × Bool

def setEscapes : List (Char × Char) :=
  [('\\', '\\'), ('a', '\x07'), ('b', '\x08'), ('f', '\x0c'), ('n', '\n'), ('r', '\r'),
    ('t', '\t'), ('v', '\x0b')]

/-- The characters of a set without backslashes, and warnings, in at most so many steps. -/
def readSetCharacters : Nat → Text → List SetCharacter × List Text
  | 0, _ | _, [] => ([], [])
  | _, ['\\'] =>
    ([('\\', false)],
      ["warning: an unescaped backslash at end of string is not portable".toList])
  | steps + 1, '\\' :: c :: rest =>
    let isOctal (c : Char) : Bool := '0' ≤ c && c ≤ '7'
    let digits := (c :: rest).takeWhile isOctal |>.take 3
    if digits.isEmpty then
      let (more, warnings) := readSetCharacters steps rest
      (((setEscapes.lookup c).getD c, true) :: more, warnings)
    else
      let value (digits : Text) : Nat := (Numeral.ofDigits? 8 digits).getD 0
      let used := if value digits < 256 then digits else digits.take 2
      let (more, warnings) := readSetCharacters steps ((c :: rest).drop used.length)
      let warning :=
        if value digits < 256 then []
        else [("warning: the ambiguous octal escape \\".toList ++ digits ++
          " is being\n\tinterpreted as the 2-byte sequence \\0".toList ++ used ++ ", ".toList ++
          digits.drop 2)]
      ((Char.ofNat (value used), true) :: more, warning ++ warnings)
  | steps + 1, c :: rest =>
    let (more, warnings) := readSetCharacters steps rest
    ((c, false) :: more, warnings)

/-- What stands in front of two characters that close brackets, and what follows them. -/
def untilClosing (mark : Char) : List SetCharacter → Option (Text × List SetCharacter)
  | [] => none
  | (c, isPlain) :: rest =>
    if c = mark && !isPlain && rest.head? = some (']', false) then some ([], rest.tail)
    else (untilClosing mark rest).map fun (text, after) => (c :: text, after)

/-- Whether a star, digits and a closing bracket stand in front. -/
def isRepetition : List SetCharacter → Bool
  | ('*', false) :: rest =>
    (rest.dropWhile fun entry => entry.1.isDigit && !entry.2).head? = some (']', false)
  | _ => false

/-- A repetition behind its opening bracket, if there is one, and what follows. -/
def readRepetition : List SetCharacter → Except Text (Option (SetElement × List SetCharacter))
  | (c, _) :: ('*', false) :: rest =>
    let digits := (rest.takeWhile fun entry => entry.1 ≠ ']' && !entry.2).map Prod.fst
    match rest.drop digits.length with
    | (']', false) :: more =>
      if digits.isEmpty then .ok (some (.repeated c none, more))
      else
        let base := if digits.head? = some '0' then 8 else 10
        match Numeral.ofDigits? base digits with
        | some 0 => .ok (some (.repeated c none, more))
        | some n =>
          if n < Numeral.wordSize - 1 then .ok (some (.repeated c (some n), more))
          else .error (badCount digits)
        | none => .error (badCount digits)
    | _ => .ok none
  | _ => .ok none
where
  badCount (digits : Text) : Text :=
    "invalid repeat count ".toList ++ Quoted.escaped digits ++ " in [c*n] construct".toList

def readNamed : List SetCharacter → Except Text (Option (SetElement × List SetCharacter))
  | (':', false) :: rest =>
    match untilClosing ':' rest with
    | none => .ok none
    | some (name, more) =>
      if name.isEmpty then .error "missing character class name '[::]'".toList
      else if (CharacterClass.all.lookup (String.ofList name)).isSome then
        .ok (some (.named (String.ofList name), more))
      else if isRepetition rest then .ok none
      else .error ("invalid character class ".toList ++ Quoted.escaped name)
  | ('=', false) :: rest =>
    match untilClosing '=' rest with
    | none => .ok none
    | some ([], _) => .error "missing equivalence class character '[==]'".toList
    | some ([c], more) => .ok (some (.equivalent c, more))
    | some (text, _) =>
      if isRepetition rest then .ok none
      else .error (text ++ ": equivalence class operand must be a single character".toList)
  | _ => .ok none

def shownCharacter (c : Char) : Text :=
  if isPrintable c then [c]
  else '\\' :: [c.toNat / 64 % 8, c.toNat / 8 % 8, c.toNat % 8].map Nat.digitChar

def readElements : Nat → List SetCharacter → Except Text (List SetElement)
  | 0, _ | _, [] => .ok []
  | steps + 1, (c, isPlain) :: rest => do
    let bracketed ←
      if c = '[' && !isPlain && rest.length ≥ 2 then
        match ← readNamed rest with
        | some found => pure (some found)
        | none => readRepetition rest
      else pure none
    match bracketed, rest with
    | some (element, more), _ => return element :: (← readElements steps more)
    | none, ('-', false) :: (d, _) :: more =>
      if d < c then
        .error ("range-endpoints of '".toList ++ shownCharacter c ++ '-' :: shownCharacter d ++
          "' are in reverse collating sequence order".toList)
      else return .range c d :: (← readElements steps more)
    | none, rest => return .single c :: (← readElements steps rest)

def readSet (text : Text) : Tool (List SetElement) := do
  let (characters, warnings) := readSetCharacters (text.length + 1) text
  for warning in warnings do complain warning
  match readElements (characters.length + 1) characters with
  | .ok elements => return elements
  | .error mistake => giveUp 1 mistake

def setSize (elements : List SetElement) : Nat :=
  Text.total (elements.map fun element => element.characters.length)

/-- Pairs what each class of letters by case stands opposite to. A class of the second set needs
one in the first at the same place. -/
def pairCases : Nat → List SetElement → List SetElement → Option (List (SetElement × SetElement))
  | 0, _, _ => some []
  | _, [], _ => some []
  | _, _, [] => some []
  | steps + 1, a :: first, b :: second =>
    if b.isCase then
      if a.isCase then (pairCases steps first second).map ((a, b) :: ·) else none
    else if a.isCase then
      let firsts := a.characters.map SetElement.single
      pairCases steps (firsts ++ first) (b :: second)
    else match a.characters, b.characters with
      | [], _ => pairCases steps first (b :: second)
      | _, [] => pairCases steps (a :: first) second
      | c :: cs, d :: ds =>
        (pairCases steps (cs.map SetElement.single ++ first)
          (ds.map SetElement.single ++ second)).map ((.single c, .single d) :: ·)

def replacements : SetElement × SetElement → List (Char × Char)
  | (.named "lower", .named "upper") =>
    (allOctets.filter Char.isLower).map fun c => (c, c.toUpper)
  | (.named "upper", .named "lower") =>
    (allOctets.filter Char.isUpper).map fun c => (c, c.toLower)
  | (a, b) => List.zip a.characters b.characters

structure CharacterChange where
  isComplement : Bool
  deletes : Bool
  squeezes : Bool
  truncates : Bool

/-- The second set, long enough for the first one, which has so many characters. -/
def fitSecond (change : CharacterChange) (first second : List SetElement) (length : Nat) :
    Except Text (List SetElement) := do
  if (second.filter SetElement.isEndless).length > 1 then
    .error "only one [c*] repeat construct may appear in string2".toList
  let missing := length - setSize second
  let filled := second.map fun element =>
    match element with
    | .repeated c none => .repeated c (some missing)
    | element => element
  if filled.any fun element => match element with
      | .equivalent _ => true
      | _ => false then
    .error "[=c=] expressions may not appear in string2 when translating".toList
  if filled.any fun element => element.isNamed && !element.isCase then
    .error ("when translating, the only character classes that may appear in\n".toList ++
      "string2 are 'upper' and 'lower'".toList)
  if !change.isComplement && filled.any SetElement.isNamed &&
      (pairCases (2 * (length + setSize filled) + 600) first filled).isNone then
    .error "misaligned [:upper:] and/or [:lower:] construct".toList
  let fitted ←
    if length ≤ setSize filled || change.truncates then pure filled
    else match filled.getLast? with
      | none => .error "when not truncating set1, string2 must be non-empty".toList
      | some last =>
        if last.isNamed then
          .error ("when translating with string1 longer than string2,\n".toList ++
            "the latter string must not end with a character class".toList)
        else match last.characters.getLast? with
          | none => .error "when not truncating set1, string2 must be non-empty".toList
          | some c => pure (filled ++ [.repeated c (some (length - setSize filled))])
  let isUniform := match fitted.flatMap SetElement.characters with
    | [] => true
    | c :: rest => rest.all (· == c)
  if change.isComplement && first.any SetElement.isNamed &&
      !(setSize fitted = length && isUniform) then
    .error ("when translating with complemented character classes,\n".toList ++
      "string2 must map all characters in the domain to one".toList)
  return fitted

/-- What takes the place of each octet, by its number. -/
def tableOf (change : CharacterChange) (first second : List SetElement) : Array Char :=
  let pairs :=
    if change.isComplement then
      let chosen := first.flatMap SetElement.characters
      List.zip (allOctets.filter fun c => !chosen.contains c)
        (second.flatMap SetElement.characters)
    else
      let steps := 2 * (setSize first + setSize second) + 600
      ((pairCases steps first second).getD []).flatMap replacements
  pairs.foldl (fun table pair => table.setIfInBounds pair.1.toNat pair.2) allOctets.toArray

def memberTable (isComplement : Bool) (elements : List SetElement) : Array Bool :=
  let chosen := elements.flatMap SetElement.characters
  (allOctets.map fun c => chosen.contains c != isComplement).toArray

/-- A text in which each run of one character of a set is that character once. -/
def squeeze (members : Array Bool) (text : Text) : Text :=
  text.foldr (fun c done =>
    if done.head? = some c && members[c.toNat]?.getD false then done else c :: done) []

def tr : Program := do
  let table := OptionTable.of "AcCdst" [("complement", "c"), ("delete", "d"),
    ("squeeze-repeats", "s"), ("truncate-set1", "t")]
  let given ← given 1 { table with stopsAtWord := true }
  let change : CharacterChange :=
    { isComplement := given.has "c" || given.has "C", deletes := given.has "d"
      squeezes := given.has "s", truncates := given.has "t" }
  let least := if change.deletes = change.squeezes then 2 else 1
  let most := if change.deletes && !change.squeezes then 1 else 2
  if given.words.length < least then
    match given.words.getLast? with
    | none => tooFew 1
    | some word =>
      complain ("missing operand after ".toList ++ Quoted.escaped word)
      mutter (if change.deletes then
          "Two strings must be given when both deleting and squeezing repeats.\n".toList
        else "Two strings must be given when translating.\n".toList)
      refer 1
  if let some word := given.words[most]? then
    complain ("extra operand ".toList ++ Quoted.escaped word)
    if given.words.length = 2 then
      mutter ("Only one string may be given when deleting without squeezing repeats.\n".toList)
    refer 1
  let first ← readSet (given.words.headD [])
  let second? ← given.words[1]?.mapM readSet
  if first.any SetElement.isEndless then
    giveUp 1 "the [c*] repeat construct may not appear in string1".toList
  let replaces := second?.isSome && !change.deletes
  let chosen := memberTable change.isComplement first
  let length := if change.isComplement then chosen.count true else setSize first
  let second := second?.getD []
  if !replaces && second.any SetElement.isEndless then
    giveUp 1 "the [c*] construct may appear in string2 only when translating".toList
  let second ←
    if !replaces then pure second
    else match fitSecond change first second length with
      | .ok second => pure second
      | .error mistake => giveUp 1 mistake
  match ← readInput with
  | .error cause => fail 1 ("read error: ".toList ++ causeText cause)
  | .ok text =>
    let replaced :=
      if change.deletes then text.filter fun c => !(chosen[c.toNat]?.getD false)
      else if replaces then
        let table := tableOf change first second
        text.map fun c => table[c.toNat]?.getD c
      else text
    let squeezed := if second?.isSome then memberTable false second else chosen
    say (if change.squeezes then squeeze squeezed replaced else replaced)

end FirmwareBuild.Posix.Program
