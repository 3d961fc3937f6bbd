import FirmwareBuild.Posix.CharacterClass

/-! # Patterns

The patterns of the shell: a star for any characters, a question mark for one, and
brackets for one of some. A character that was quoted stands for itself, and a
backslash that was not makes the character behind it stand for itself. -/

namespace FirmwareBuild.Posix

/-- A character of a pattern, and whether it was quoted. -/
abbrev PatternChar := Char × Bool

inductive Member where
  | range (low high : Char)
  | named (name : String)
  deriving DecidableEq, Repr

def Member.holds (c : Char) : Member → Bool
  | range low high => low ≤ c && c ≤ high
  | named name => CharacterClass.holds name c

inductive Slot where
  | one (c : Char)
  | any
  | anySequence
  | oneOf (negated : Bool) (members : List Member)
  deriving DecidableEq, Repr

/-- The character in front, which a backslash may protect, and what follows it. -/
def protected? : List PatternChar → Option (Char × List PatternChar)
  | [] => none
  | ('\\', false) :: (c, _) :: rest => some (c, rest)
  | (c, _) :: rest => some (c, rest)

def namedClass? (pattern : List PatternChar) : Option (String × List PatternChar) :=
  let text := (pattern.takeWhile fun c => !c.2).map Prod.fst
  (CharacterClass.read? text).map fun (name, rest) =>
    (name, pattern.drop (text.length - rest.length))

/-- What stands between brackets up to the closing one, which does not count in front, in at most
so many steps. -/
def members? : Nat → (first : Bool) → List PatternChar → Option (List Member × List PatternChar)
  | 0, _, _ => none
  | steps + 1, first, pattern => do
    match pattern with
    | (']', false) :: rest => if !first then return ([], rest)
    | ('[', false) :: rest =>
      if let some (name, rest) := namedClass? rest then
        let (more, rest) ← members? steps false rest
        return (.named name :: more, rest)
    | _ => pure ()
    let (low, rest) ← protected? pattern
    let single := (Member.range low low, rest)
    let (member, rest) := match rest with
      | ('-', false) :: (']', false) :: _ => single
      | ('-', false) :: ranged =>
        match protected? ranged with
        | some (high, rest) => (.range low high, rest)
        | none => single
      | _ => single
    let (more, rest) ← members? steps false rest
    return (member :: more, rest)

def negation : List PatternChar → Bool × List PatternChar
  | ('!', false) :: inside => (true, inside)
  | inside => (false, inside)

/-- The places of a pattern behind those that are done, the latest first, in at most so many steps.
A bracket that is not closed stands for itself. -/
def slotsOnto : Nat → (done : List Slot) → List PatternChar → List Slot
  | 0, done, _ => done
  | _, done, [] => done
  | steps + 1, done, ('*', false) :: rest => slotsOnto steps (.anySequence :: done) rest
  | steps + 1, done, ('?', false) :: rest => slotsOnto steps (.any :: done) rest
  | steps + 1, done, ('\\', false) :: (c, _) :: rest => slotsOnto steps (.one c :: done) rest
  | steps + 1, done, ('[', false) :: rest =>
    let (negated, inside) := negation rest
    match members? (inside.length + 1) true inside with
    | some (members, behind) => slotsOnto steps (.oneOf negated members :: done) behind
    | none => slotsOnto steps (.one '[' :: done) rest
  | steps + 1, done, (c, _) :: rest => slotsOnto steps (.one c :: done) rest

def slots (pattern : List PatternChar) : List Slot := (slotsOnto pattern.length [] pattern).reverse

def Slot.accepts (c : Char) : Slot → Bool
  | one d => c == d
  | any | anySequence => true
  | oneOf negated members => members.any (Member.holds c) != negated

/-- The numbers of places that may come next from a number on, in at most so many steps: a star may
stand for nothing. -/
def reach (places : Array Slot) : Nat → Nat → List Nat
  | 0, i => [i]
  | steps + 1, i =>
    if places[i]? = some .anySequence then i :: reach places steps (i + 1) else [i]

/-- The numbers of places that may come next behind one more character. -/
def advance (places : Array Slot) (c : Char) (states : List Nat) : List Nat :=
  (states.flatMap fun (i : Nat) =>
    match places[i]? with
    | none => []
    | some .anySequence => reach places places.size i
    | some slot => if slot.accepts c then reach places places.size (i + 1) else []).eraseDups

/-- The lengths of the starts of a text that have the form of some places, the longest first, behind
those that were found before. -/
def lengthsFrom (places : Array Slot) : Text → (states : List Nat) → (passed : Nat) →
    (done : List Nat) → List Nat
  | text, states, passed, done =>
    let done := if states.contains places.size then passed :: done else done
    match text with
    | [] => done
    | c :: rest =>
      if states.isEmpty then done
      else lengthsFrom places rest (advance places c states) (passed + 1) done

def startLengths (places : List Slot) (text : Text) : List Nat :=
  let places := places.toArray
  lengthsFrom places text (reach places places.size 0) 0 []

def matchPattern (pattern : List PatternChar) (text : Text) : Bool :=
  (startLengths (slots pattern) text).head? = some text.length

/-- Whether a pattern stands for more than one text. -/
def isPattern (pattern : List PatternChar) : Bool :=
  (slots pattern).any fun
    | .one _ => false
    | _ => true

/-- The text that a pattern stands for if its places stand for one character each. -/
def plainText (pattern : List PatternChar) : Text :=
  (slots pattern).filterMap fun
    | .one c => some c
    | _ => none

/-- Texts without a start that has the form of a pattern, the longest or the shortest. Only the
first text is looked at; if all of it goes, the others go with it. -/
def dropStart (longest : Bool) (pattern : List PatternChar) : List Text → List Text
  | [] => []
  | text :: rest =>
    let lengths := startLengths (slots pattern) text
    match if longest then lengths.head? else lengths.getLast? with
    | none => text :: rest
    | some n =>
      if longest && n = text.length && !rest.isEmpty then [[]] else text.drop n :: rest

/-- Texts without an end that has the form of a pattern, the longest or the shortest. An end goes up
to the end of its text, and the texts behind it go with it. -/
def dropEnd (longest : Bool) (pattern : List PatternChar) (texts : List Text) : List Text :=
  let places := (slots pattern).reverse
  let cut? (text : Text) : Option Text :=
    let lengths := startLengths places text.reverse
    (if longest then lengths.head? else lengths.getLast?).map fun n => text.take (text.length - n)
  let found := texts.zipIdx.filterMap fun (text, i) => (cut? text).map (i, ·)
  match if longest then found.head? else found.getLast? with
  | some (i, start) => texts.take i ++ [start]
  | none => texts

end FirmwareBuild.Posix
