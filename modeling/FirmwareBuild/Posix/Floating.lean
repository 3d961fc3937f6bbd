import FirmwareBuild.Posix.Numeral

/-! # Numbers with a fraction

Binary numbers with so many digits as programs of the machine read and print them.
A number is a quotient of whole numbers, so all that is rounded is what reading a
decimal and cutting off places round: to the nearest, and halfway to the even
neighbour. -/

namespace FirmwareBuild.Posix

/-- A number with a fraction, without its sign. -/
inductive Magnitude where
  | infinite
  | undefined
  | finite (numerator denominator : Nat)
  deriving DecidableEq, Repr

structure Floating where
  isNegative : Bool
  magnitude : Magnitude
  deriving DecidableEq, Repr

/-- How exact numbers with a fraction are: their binary digits, the least exponent of two of the
last digit, and the exponent of two that numbers stay below. -/
structure Exactness where
  digits : Nat
  least : Int
  limit : Nat
  deriving DecidableEq, Repr

def Exactness.double : Exactness := { digits := 53, least := -1074, limit := 1024 }

def Exactness.extended : Exactness := { digits := 64, least := -16445, limit := 16384 }

namespace Floating

/-- The whole number nearest to a quotient, the even one of two. -/
def roundedQuotient (numerator denominator : Nat) : Nat :=
  let whole := numerator / denominator
  let twice := 2 * (numerator % denominator)
  if twice < denominator ∨ twice = denominator ∧ whole % 2 = 0 then whole else whole + 1

def twoTo (n : Nat) : Nat := Nat.shiftLeft 1 n

def tenTo (n : Nat) : Nat := Nat.pow 10 n

def scaled (numerator denominator : Nat) (exponent : Int) : Nat × Nat :=
  match exponent with
  | .ofNat e => (numerator * twoTo e, denominator)
  | .negSucc e => (numerator, denominator * twoTo (e + 1))

/-- The nearest number that is as exact as asked for, and whether it lies inside the range where all
of its digits count. -/
def nearest (exactness : Exactness) (numerator denominator : Nat) : Magnitude × Bool :=
  if numerator = 0 ∨ denominator = 0 then (.finite 0 1, true)
  else
    let places := exactness.digits - 1
    let guess : Int := (numerator.log2 : Int) - denominator.log2 - places
    let exponent (g : Int) : Int := max g exactness.least
    let digits (g : Int) : Nat :=
      let (n, d) := scaled numerator denominator (-g)
      roundedQuotient n d
    let tooSmall := let (n, d) := scaled numerator denominator (-guess); n / d < twoTo places
    let e := exponent (if tooSmall then guess - 1 else guess)
    let m := digits e
    let (n, d) := scaled m 1 e
    if n ≥ d * twoTo exactness.limit then (.infinite, false)
    else (.finite n d, m ≥ twoTo places || m == 0)

structure Found where
  value : Floating
  hasDigits : Bool
  fits : Bool
  rest : Text

def exponentOf (letters : List Char) (text : Text) : Int × Text :=
  match text with
  | e :: rest =>
    if e ∉ letters then (0, text)
    else
      let (negative, digits) := match rest with
        | '-' :: digits => (true, digits)
        | '+' :: digits => (false, digits)
        | digits => (false, digits)
      let inside := digits.takeWhile Char.isDigit
      match Numeral.ofDigits? 10 inside with
      | none => (0, text)
      | some n =>
        let n := min n 100000
        (if negative then -n else n, digits.drop inside.length)
  | [] => (0, [])

/-- The digits of a number with a point in it, how many stand behind the point, and what follows. -/
def mantissaOf (base : Nat) (text : Text) : Text × Nat × Text :=
  let isDigit (c : Char) : Bool := (Numeral.digit? base c).isSome
  let whole := text.takeWhile isDigit
  match text.drop whole.length with
  | '.' :: rest =>
    let fraction := rest.takeWhile isDigit
    if whole.isEmpty && fraction.isEmpty then ([], 0, text)
    else (whole ++ fraction, fraction.length, rest.drop fraction.length)
  | rest => (whole, 0, rest)

/-- The number in front of a text: in decimal or hexadecimal digits, or a word. -/
def read (exactness : Exactness) (text : Text) : Found :=
  let inside := text.dropWhile Numeral.isSpace
  let (isNegative, inside) := match inside with
    | '-' :: rest => (true, rest)
    | '+' :: rest => (false, rest)
    | rest => (false, rest)
  let word? (word : String) : Option Text :=
    let start := inside.take word.length
    if start.map Char.toLower = word.toList then some (inside.drop word.length) else none
  let named (magnitude : Magnitude) (rest : Text) : Found :=
    { value := { isNegative, magnitude }, hasDigits := true, fits := true, rest }
  match word? "infinity", word? "inf", word? "nan" with
  | some rest, _, _ | _, some rest, _ => named .infinite rest
  | _, _, some rest => named .undefined rest
  | _, _, _ =>
    let hexadecimal := match inside with
      | '0' :: x :: rest =>
        if (x = 'x' ∨ x = 'X') ∧ !(mantissaOf 16 rest).1.isEmpty then some rest else none
      | _ => none
    let (base, digits, places, rest) := match hexadecimal with
      | some rest => (16, mantissaOf 16 rest)
      | none => (10, mantissaOf 10 inside)
    match Numeral.ofDigits? base digits with
    | none =>
      { value := { isNegative, magnitude := .finite 0 1 }, hasDigits := false, fits := true
        rest := text }
    | some m =>
      let (e, rest) := exponentOf (if base = 16 then ['p', 'P'] else ['e', 'E']) rest
      let (n, d) :=
        if base = 16 then scaled m 1 (e - 4 * places)
        else match e - places with
          | .ofNat e => (m * tenTo e, 1)
          | .negSucc e => (m, tenTo (e + 1))
      let (magnitude, fits) := nearest exactness n d
      { value := { isNegative, magnitude }, hasDigits := true, fits, rest }

/-- A number with so many decimal places. The point is left out if nothing follows it, unless it
is asked for. -/
def fixed (places : Nat) (withPoint : Bool) (numerator denominator : Nat) : Text :=
  let digits := Text.ofNat (roundedQuotient (numerator * tenTo places) denominator)
  let digits := List.replicate (places + 1 - digits.length) '0' ++ digits
  let whole := digits.take (digits.length - places)
  if places = 0 then whole ++ if withPoint then ['.'] else []
  else whole ++ '.' :: digits.drop (digits.length - places)

/-- The exponent of ten of the first digit of a number, at most so far from zero. -/
def firstPlace (numerator denominator : Nat) : Int :=
  if numerator ≥ denominator then
    ((Text.ofNat (numerator / denominator)).length : Int) - 1
  else
    let isFirst (place : Nat) : Bool := numerator * tenTo (place + 1) ≥ denominator
    Int.negSucc (((List.range 400).find? isFirst).getD 400)

def digitsOf (places : Nat) (numerator denominator : Nat) : Text × Int :=
  if numerator = 0 then (List.replicate places '0', 0)
  else
    let first := firstPlace numerator denominator
    let digits := Text.ofNat <| match (places : Int) - 1 - first with
      | .ofNat up => roundedQuotient (numerator * tenTo up) denominator
      | .negSucc down => roundedQuotient numerator (denominator * tenTo (down + 1))
    if digits.length > places then (digits.take places, first + 1) else (digits, first)

def exponentText (letter : Char) (exponent : Int) : Text :=
  let digits := Text.ofNat exponent.natAbs
  letter :: (if exponent < 0 then '-' else '+') ::
    (List.replicate (2 - digits.length) '0' ++ digits)

/-- A number with one digit in front of the point, so many behind it, and an exponent. -/
def scientific (letter : Char) (places : Nat) (withPoint : Bool) (numerator denominator : Nat) :
    Text :=
  let (digits, exponent) := digitsOf (places + 1) numerator denominator
  digits.take 1 ++ (if places ≠ 0 ∨ withPoint then '.' :: digits.drop 1 else []) ++
    exponentText letter exponent

/-- A number in so many digits, written with or without an exponent as the exponent tells. Zeros
at the end are left out, unless all digits are asked for. -/
def general (letter : Char) (digits : Nat) (allDigits : Bool) (numerator denominator : Nat) :
    Text :=
  let count := max digits 1
  let exponent := (digitsOf count numerator denominator).2
  let shorten (text : Text) : Text :=
    if allDigits || !text.contains '.' then text
    else Text.dropEnd (· == '.') (Text.dropEnd (· == '0') text)
  if exponent < -4 ∨ exponent ≥ count then
    let text := scientific letter (count - 1) allDigits numerator denominator
    shorten (text.takeWhile (· ≠ letter)) ++ text.dropWhile (· ≠ letter)
  else shorten (fixed ((count : Int) - 1 - exponent).toNat allDigits numerator denominator)

def firstBit (numerator denominator : Nat) : Int :=
  let guess : Int := (numerator.log2 : Int) - denominator.log2
  let (n, d) := scaled numerator denominator (-guess)
  if n < d then guess - 1 else guess

/-- A number in hexadecimal digits with an exponent of two. The first digit stands for so many
bits. All places that are not zero are shown, unless their number is given. -/
def hexadecimal (exactness : Exactness) (leadBits : Nat) (places : Option Nat) (withPoint : Bool)
    (numerator denominator : Nat) : Text :=
  let count := places.getD ((exactness.digits + 3 - leadBits) / 4)
  let exponent : Int :=
    if numerator = 0 then 0 else firstBit numerator denominator - (leadBits - 1 : Nat)
  let (n, d) := scaled numerator denominator ((4 * count : Nat) - exponent)
  let digits := Nat.toDigits 16 (roundedQuotient n d)
  let digits := List.replicate (count + 1 - digits.length) '0' ++ digits
  let fraction := digits.drop (digits.length - count)
  let fraction := if places.isNone then Text.dropEnd (· == '0') fraction else fraction
  digits.take (digits.length - count) ++
    (if fraction.isEmpty && !withPoint then [] else '.' :: fraction) ++
    'p' :: (if exponent < 0 then '-' else '+') :: Text.ofNat exponent.natAbs

/-! ## Arithmetic -/

def ofQuotient (exactness : Exactness) (numerator : Int) (denominator : Nat) : Floating :=
  { isNegative := decide (numerator < 0)
    magnitude := (nearest exactness numerator.natAbs denominator).1 }

def quotient? (a : Floating) : Option (Int × Nat) :=
  match a.magnitude with
  | .finite n d => some (if a.isNegative then -(n : Int) else n, d)
  | _ => none

def add (exactness : Exactness) (a b : Floating) : Floating :=
  match a.quotient?, b.quotient? with
  | some (n, d), some (m, e) =>
    if n = 0 ∧ m = 0 then { a with isNegative := a.isNegative && b.isNegative }
    else ofQuotient exactness (n * e + m * d) (d * e)
  | some _, none => b
  | none, some _ => a
  | none, none =>
    if a.magnitude = .infinite ∧ b = a then a else { a with magnitude := .undefined }

def multiple (exactness : Exactness) (count : Nat) (a : Floating) : Floating :=
  match a.quotient? with
  | some (n, d) => { ofQuotient exactness (n * count) d with isNegative := a.isNegative }
  | none => if count = 0 then { a with magnitude := .undefined } else a

def less (a b : Floating) : Bool :=
  match a.quotient?, b.quotient? with
  | some (n, d), some (m, e) => n * e < m * d
  | some _, none => b.magnitude = .infinite && !b.isNegative
  | none, some _ => a.magnitude = .infinite && a.isNegative
  | none, none =>
    a.magnitude = .infinite && b.magnitude = .infinite && a.isNegative && !b.isNegative

def isZero (a : Floating) : Bool := a.quotient?.any fun quotient => quotient.1 = 0

end Floating

end FirmwareBuild.Posix
