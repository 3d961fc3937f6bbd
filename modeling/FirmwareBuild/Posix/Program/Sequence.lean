import FirmwareBuild.Posix.Program.Source

/-! # Sequences of numbers

A program that prints numbers at one distance from each other. How many places and
digits they get depends on how the first number, the distance and the last one are
written. -/

namespace FirmwareBuild.Posix.Program

open Tool

/-- A number with the width and the places that it was written with. Places are unknown for what is
not written in decimal digits. -/
structure Written where
  value : Floating
  width : Int
  places : Option Nat
  deriving DecidableEq, Repr

def Written.one : Written :=
  { value := { isNegative := false, magnitude := .finite 1 1 }, width := 1, places := some 0 }

def decimalShape (text : Text) : Int × Nat :=
  let isExponent (c : Char) : Bool := c == 'e' || c == 'E'
  let mantissa := text.takeWhile fun c => !isExponent c
  let exponent? := (text.drop mantissa.length).tail
  let hasPoint := mantissa.contains '.'
  let (whole, fraction) := (Text.splitFirst? '.' mantissa).getD (mantissa, [])
  let pointWidth : Int :=
    if !hasPoint then 0
    else if fraction.isEmpty then -1
    else if whole.getLast?.all (!·.isDigit) then 1
    else 0
  let width : Int := mantissa.length + pointWidth
  if mantissa.length = text.length then (width, fraction.length)
  else
    let exponent := (Numeral.read false exponent?).value
    if exponent < 0 then
      (width + (if hasPoint then if fraction.isEmpty then 1 else 0 else 1) + exponent.natAbs,
        fraction.length + exponent.natAbs)
    else
      let up := exponent.natAbs
      let places := fraction.length - up
      let noPoint : Int := if places = 0 ∧ !fraction.isEmpty then -1 else 0
      (width + noPoint + (up - fraction.length : Nat), places)

def Written.read (arg : Text) : Tool Written := do
  let found := Floating.read .extended arg
  if !found.hasDigits || !found.rest.isEmpty then
    misuse 1 ("invalid floating point argument: ".toList ++ Quoted.escaped arg)
  if found.value.magnitude = .undefined then
    misuse 1 ("invalid 'not-a-number' argument: ".toList ++ Quoted.escaped arg)
  let text := arg.dropWhile fun c => Numeral.isSpace c || c == '+'
  let isHexadecimal := text.any fun c => c == 'x' || c == 'X'
  let isFinite := found.value.magnitude ≠ .infinite
  if isFinite && !isHexadecimal then
    let (width, places) := decimalShape text
    return { value := found.value, width, places := some places }
  else
    let places := if text.contains '.' || text.contains 'p' then none else some 0
    return { value := found.value, width := 0, places }

/-- How each number is printed: a conversion with texts around it. -/
structure NumberFormat where
  before : Text := []
  layout : Layout := {}
  conversion : Char := 'f'
  behind : Text := []

namespace NumberFormat

def number (format : NumberFormat) (value : Floating) : Text :=
  format.layout.showFloating .installed format.conversion value

def render (format : NumberFormat) (value : Floating) : Text :=
  format.before ++ format.number value ++ format.behind

/-- The format that fits how the numbers are written. -/
def ofNumbers (isEven : Bool) (first step last : Written) : NumberFormat :=
  match first.places, step.places, last.places with
  | some p, some q, some r =>
    let places := max p q
    if !isEven then { layout := { precision := some places } }
    else
      let firstWidth := first.width + (places - p : Nat) + if p = 0 ∧ places ≠ 0 then 1 else 0
      let lastWidth := last.width + ((places : Int) - r) +
        (if r ≠ 0 ∧ places = 0 then -1 else 0) + if r = 0 ∧ places ≠ 0 then 1 else 0
      { layout := { precision := some places, zeros := true
                    width := (max firstWidth lastWidth).toNat } }
  | _, _, _ => { conversion := 'g' }

/-- The text up to a conversion, with doubled percent signs as one, and what follows. -/
def untilConversion : Text → Text → Text × Option Text
  | done, [] => (done.reverse, none)
  | done, '%' :: '%' :: rest => untilConversion ('%' :: done) rest
  | done, '%' :: rest => (done.reverse, some rest)
  | done, c :: rest => untilConversion (c :: done) rest

def read (text : Text) : Tool NumberFormat := do
  let fail {α : Type} (what : Text) : Tool α :=
    giveUp 1 ("format ".toList ++ Quoted.escaped text ++ ' ' :: what)
  match untilConversion [] text with
  | (_, none) => fail "has no % directive".toList
  | (before, some rest) =>
    let signs := rest.takeWhile fun c => ['-', '+', '#', '0', ' ', '\''].contains c
    let withSign (layout : Layout) (c : Char) : Layout :=
      (layout.withSign? .installed c).getD layout
    let layout := signs.foldl withSign {}
    let rest := rest.drop signs.length
    let width := rest.takeWhile Char.isDigit
    let rest := rest.drop width.length
    let (precision, rest) := match rest with
      | '.' :: rest =>
        let digits := rest.takeWhile Char.isDigit
        (some ((Numeral.ofDigits? 10 digits).getD 0), rest.drop digits.length)
      | rest => (none, rest)
    let rest := if rest.head? = some 'L' then rest.tail else rest
    match rest with
    | [] => fail "ends in %".toList
    | c :: rest =>
      if !(['e', 'f', 'g', 'a', 'E', 'F', 'G', 'A'].contains c) then
        fail ("has unknown %".toList ++ [c] ++ " directive".toList)
      match untilConversion [] rest with
      | (_, some _) => fail "has too many % directives".toList
      | (behind, none) =>
        return { before, conversion := c, behind
                 layout := { layout with width := (Numeral.ofDigits? 10 width).getD 0
                                         precision } }

end NumberFormat

/-- The numbers from one to another, at most so many, each in words, the latest first. A number
behind the last one still counts if it is written like the last one and unlike the one before. -/
def sequenceFrom (format : NumberFormat) (first step last : Floating) :
    Nat → (index : Nat) → Floating → List Text → List Text
  | 0, _, _, done => done
  | limit + 1, index, x, done =>
    let done := format.render x :: done
    let next := Floating.add .extended first (Floating.multiple .extended index step)
    let isOut := if step.isNegative then next.less last else last.less next
    if !isOut then sequenceFrom format first step last limit (index + 1) next done
    else
      let shown := Floating.read .extended (format.number next)
      let isLast := shown.hasDigits && !shown.value.less last && !last.less shown.value
      if isLast && format.number next ≠ format.number x then format.render next :: done else done

/-- Whole numbers from one to another, at most so many, the latest first. -/
def countFrom (step last : Nat) : Nat → Nat → List Text → List Text
  | 0, _, done => done
  | limit + 1, n, done =>
    if last < n then done else countFrom step last limit (n + step) (Text.ofNat n :: done)

def isNegativeWord (arg : Text) : Bool :=
  match arg with
  | '-' :: c :: _ => c == '.' || c.isDigit
  | _ => false

def seq : Program := do
  let table := OptionTable.of "f:s:w" [("equal-width", "w"), ("format=", "f"),
    ("separator=", "s")]
  let given ← given 1 { table with stopsAtWord := true, isWord := isNegativeWord }
  if given.words.isEmpty then tooFew 1
  if let some word := given.words[3]? then tooMany 1 word
  let format? ← (given.value? "f").mapM NumberFormat.read
  if format?.isSome && given.has "w" then
    misuse 1 "format string may not be specified when printing equal width strings".toList
  let separator := (given.value? "s").getD ['\n']
  let w ← get
  let limit := (w.room.map (· + 2)).getD 100000000
  let finish (items : List Text) : Tool Unit := do
    unless items.isEmpty do say (Text.join separator items.reverse ++ ['\n'])
  let isWhole (word : Text) : Bool := !word.isEmpty && word.all Char.isDigit
  let numbers := given.words.map fun word => (Numeral.ofDigits? 10 word).getD 0
  let (m, n, k) := match numbers with
    | [last] => (1, 1, last)
    | [first, last] => (first, 1, last)
    | [first, step, last] => (first, step, last)
    | _ => (0, 0, 0)
  if given.words.all isWhole && 0 < n && n ≤ 200 && format?.isNone && !given.has "w" &&
      separator.length = 1 then
    finish (countFrom n k (min limit (k + 1 - m)) m [])
  else
    let (first, step, last) ← match given.words with
      | [last] => do pure (Written.one, Written.one, ← Written.read last)
      | [first, last] => do
        let first ← Written.read first
        pure (first, Written.one, ← Written.read last)
      | first :: step :: last :: _ => do
        let first ← Written.read first
        let distance ← Written.read step
        if distance.value.isZero then
          misuse 1 ("invalid Zero increment value: ".toList ++ Quoted.escaped step)
        pure (first, distance, ← Written.read last)
      | [] => tooFew 1
    let format := format?.getD (.ofNumbers (given.has "w") first step last)
    let isOut := if step.value.isNegative then first.value.less last.value
      else last.value.less first.value
    unless isOut do
      finish (sequenceFrom format first.value step.value last.value limit 1 first.value [])

end FirmwareBuild.Posix.Program
