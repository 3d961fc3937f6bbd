import FirmwareBuild.Text

/-! # Numerals

Whole numbers as programs of the machine write and read them. A number has 64 bits
and a sign. Reading one goes over blanks in front, a sign and digits, and stops
there; a number that needs more bits counts as the nearest one that fits. -/

namespace FirmwareBuild.Posix.Numeral

def wordSize : Nat := 18446744073709551616

def maxNumber : Int := 9223372036854775807

def minNumber : Int := -9223372036854775808

def wrap (n : Int) : Int := n.bmod wordSize

def digits (n : Int) : Text := if n < 0 then '-' :: Text.ofNat n.natAbs else Text.ofNat n.natAbs

def digit? (base : Nat) (c : Char) : Option Nat :=
  let value :=
    if c.isDigit then c.toNat - '0'.toNat
    else if 'a' ≤ c ∧ c ≤ 'f' then c.toNat - 'a'.toNat + 10
    else if 'A' ≤ c ∧ c ≤ 'F' then c.toNat - 'A'.toNat + 10
    else base
  if value < base then some value else none

def ofDigits? (base : Nat) (digits : Text) : Option Nat :=
  if digits.isEmpty then none
  else digits.foldlM (fun n c => (digit? base c).map (n * base + ·)) 0

/-- The white space that may stand in front of a number. -/
def isSpace (c : Char) : Bool := c == ' ' || 0x09 ≤ c.toNat && c.toNat ≤ 0x0D

structure Found where
  /-- The number, zero if there are no digits. -/
  value : Int
  hasDigits : Bool
  fits : Bool
  /-- What follows, which is all if there are no digits. -/
  rest : Text

/-- The base that the first digits tell, and the digits. A zero in front is the base eight, and
with an `x` and a digit behind it the base sixteen. -/
def baseOf (text : Text) : Nat × Text :=
  match text with
  | '0' :: x :: d :: rest =>
    if (x = 'x' ∨ x = 'X') ∧ (digit? 16 d).isSome then (16, d :: rest)
    else (8, '0' :: x :: d :: rest)
  | '0' :: rest => (8, '0' :: rest)
  | rest => (10, rest)

/-- The number in front of a text, in base ten or in the base that its digits tell, however large
it is. -/
def readExact (anyBase : Bool) (text : Text) : Found :=
  let inside := text.dropWhile isSpace
  let (negative, inside) := match inside with
    | '-' :: rest => (true, rest)
    | '+' :: rest => (false, rest)
    | rest => (false, rest)
  let (base, inside) := if anyBase then baseOf inside else (10, inside)
  let digits := inside.takeWhile fun c => (digit? base c).isSome
  match ofDigits? base digits with
  | none => { value := 0, hasDigits := false, fits := true, rest := text }
  | some n =>
    let value : Int := if negative then -n else n
    { value, hasDigits := true, fits := minNumber ≤ value ∧ value ≤ maxNumber
      rest := inside.drop digits.length }

def read (anyBase : Bool) (text : Text) : Found :=
  let found := readExact anyBase text
  { found with value := max minNumber (min maxNumber found.value) }

/-- The number that a whole text denotes in base ten, with white space around it. -/
def ofText? (text : Text) : Option Int :=
  let found := read false text
  if found.hasDigits && found.fits && found.rest.all isSpace then some found.value else none

/-- The number that the value of a variable denotes in any base. Nothing denotes zero. -/
def ofValue? (text : Text) : Option Int :=
  let found := read true text
  if found.fits && found.rest.all isSpace then some found.value else none

/-- The number of at most 31 bits and without a sign that a whole text denotes. -/
def count? (text : Text) : Option Nat :=
  match ofText? text with
  | some (.ofNat n) => if n ≤ 2147483647 then some n else none
  | _ => none

end FirmwareBuild.Posix.Numeral
