import FirmwareBuild.Toml

/-! # Words of a TOML document

Numbers, truth values, dates and times. A word is the longest run of the
characters that such values are made of; it has to be one of them as a whole. -/

namespace FirmwareBuild.Toml

def isWordChar (c : Char) : Bool := c.isAlphanum || "+-._:".toList.contains c

/-- Digits without the underscores that group them. An underscore stands between two digits. -/
def ungroup? (isDigit : Char → Bool) : Text → Option Text
  | [] => none
  | [d] => if isDigit d then some [d] else none
  | d :: '_' :: rest => if isDigit d then (ungroup? isDigit rest).map (d :: ·) else none
  | d :: rest => if isDigit d then (ungroup? isDigit rest).map (d :: ·) else none

def digitValue (c : Char) : Nat :=
  if c.isDigit then c.toNat - '0'.toNat
  else if c.isLower then c.toNat - 'a'.toNat + 10
  else c.toNat - 'A'.toNat + 10

def isDigitIn (base : Nat) (c : Char) : Bool := c.isAlphanum && digitValue c < base

def numberOf (base : Nat) (digits : Text) : Nat :=
  digits.foldl (fun n c => n * base + digitValue c) 0

def signed : Text → Bool × Text
  | '-' :: rest => (true, rest)
  | '+' :: rest => (false, rest)
  | s => (false, s)

/-- The digits of a whole number, which has no zero in front. -/
def whole? (s : Text) : Option Text := do
  let digits ← ungroup? Char.isDigit s
  if digits.head? = some '0' ∧ digits ≠ ['0'] then none else some digits

/-- How many integers without a sign fit into 64 bits besides those with a minus sign. -/
def integerLimit : Nat := 9223372036854775808

def integer? (word : Text) : Option Toml := do
  let based (base : Nat) (s : Text) : Option Toml := do
    let n := numberOf base (← ungroup? (isDigitIn base) s)
    if n < integerLimit then some (.integer n) else none
  match word with
  | '0' :: 'x' :: s => based 16 s
  | '0' :: 'o' :: s => based 8 s
  | '0' :: 'b' :: s => based 2 s
  | s =>
    let (negative, s) := signed s
    let n := numberOf 10 (← whole? s)
    if negative then if n ≤ integerLimit then some (.integer (-n)) else none
    else if n < integerLimit then some (.integer n) else none

/-- Whether a decimal number is so large that the nearest double is infinite. -/
def isTooLarge (digits : Text) (exponent : Int) : Bool :=
  let n := numberOf 10 digits
  let size := (Text.ofNat n).length + exponent
  if n = 0 ∨ size < 300 then false
  else if size > 320 then true
  else
    let limit := Nat.pow 2 1024 - Nat.pow 2 970
    if exponent ≥ 0 then limit ≤ n * Nat.pow 10 exponent.toNat
    else limit * Nat.pow 10 (-exponent).toNat ≤ n

/-- A number with a fraction or an exponent, or one of the words for infinity and for no number.
A number above all doubles is refused. -/
def float? (word : Text) : Option Toml := do
  let (negative, s) := signed word
  if s = "inf".toList ∨ s = "nan".toList then return .float word
  let mantissa := s.takeWhile (fun c => c != 'e' && c != 'E')
  let exponentPart := s.dropWhile (fun c => c != 'e' && c != 'E')
  let wholePart := mantissa.takeWhile (· != '.')
  let fractionPart := mantissa.dropWhile (· != '.')
  let whole ← whole? wholePart
  let fraction ← match fractionPart with
    | [] => some []
    | _ :: digits => ungroup? Char.isDigit digits
  let exponent ← match exponentPart with
    | [] => some (0 : Int)
    | _ :: s =>
      let (negative, s) := signed s
      (ungroup? Char.isDigit s).map fun digits =>
        if negative then -(numberOf 10 digits : Int) else numberOf 10 digits
  if fractionPart.isEmpty && exponentPart.isEmpty then none
  else if !negative && isTooLarge (whole ++ fraction) (exponent - fraction.length) then none
  else some (.float word)

def field? (digits : Text) (count least greatest : Nat) : Option Nat :=
  let n := numberOf 10 digits
  if digits.length = count ∧ digits.all Char.isDigit ∧ least ≤ n ∧ n ≤ greatest then some n
  else none

def daysIn (year month : Nat) : Nat :=
  if month = 2 then if (year % 4 = 0 ∧ year % 100 ≠ 0) ∨ year % 400 = 0 then 29 else 28
  else if month = 4 ∨ month = 6 ∨ month = 9 ∨ month = 11 then 30
  else 31

def isDate (s : Text) : Bool :=
  match Text.split '-' s with
  | [year, month, day] => Option.isSome do
    let year ← field? year 4 0 9999
    let month ← field? month 2 1 12
    field? day 2 1 (daysIn year month)
  | _ => false

def isTime (s : Text) : Bool :=
  match Text.split ':' s with
  | [hour, minute, second] => Option.isSome do
    let _ ← field? hour 2 0 23
    let _ ← field? minute 2 0 59
    let _ ← field? (second.take 2) 2 0 60
    match second.drop 2 with
    | [] => some ()
    | '.' :: digits => if digits.isEmpty || !digits.all Char.isDigit then none else some ()
    | _ => none
  | _ => false

def isOffset (s : Text) : Bool :=
  match Text.split ':' s with
  | [hour, minute] => (field? hour 2 0 23).isSome && (field? minute 2 0 59).isSome
  | _ => false

def isZonedTime (s : Text) : Bool :=
  let isClock (c : Char) := c.isDigit || c == ':' || c == '.'
  isTime (s.takeWhile isClock) &&
    match s.dropWhile isClock with
    | [] => true
    | ['Z'] | ['z'] => true
    | '+' :: offset | '-' :: offset => isOffset offset
    | _ => false

def datetime? (word : Text) : Option Toml :=
  let date := word.take 10
  let valid := match word.drop 10 with
    | [] => isDate date || isTime word
    | 'T' :: time | 't' :: time => (isDate date && isZonedTime time) || isTime word
    | _ => isTime word
  if valid then some (.datetime word) else none

def wordValue? (word : Text) : Option Toml :=
  if word = "true".toList then some (.boolean true)
  else if word = "false".toList then some (.boolean false)
  else (integer? word).or ((float? word).or (datetime? word))

/-- The value that the words at the start of a text write, with the text after it. A date and a
time may be apart by one space. -/
def scalar? (s : Text) : Option (Toml × Text) :=
  let word := s.takeWhile isWordChar
  let rest := s.dropWhile isWordChar
  match rest with
  | ' ' :: d :: more =>
    if isDate word && d.isDigit then
      let time := (d :: more).takeWhile isWordChar
      if isZonedTime time then
        some (.datetime (word ++ ' ' :: time), (d :: more).dropWhile isWordChar)
      else none
    else (wordValue? word).map (·, rest)
  | _ => (wordValue? word).map (·, rest)

end FirmwareBuild.Toml
