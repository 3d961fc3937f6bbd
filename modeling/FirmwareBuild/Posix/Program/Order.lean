import FirmwareBuild.Posix.Floating

/-! # Orders of lines and names

The orders that lines and names are put in: by octets, by the number in front, by a
number with a letter for its size, by the name of a month, and by version, where
runs of digits count as numbers. -/

namespace FirmwareBuild.Posix

namespace LineOrder

/-- The order of octets, where a start comes first. -/
def plain (a b : Text) : Ordering := compare (a.map Char.toNat) (b.map Char.toNat)

/-- The blanks that may stand in front of a number. -/
def isBlank (c : Char) : Bool := c == ' ' || c == '\t' || c == '\n'

/-- The number in front of a text as a quotient. -/
def decimal (text : Text) : Int × Nat :=
  let text := text.dropWhile isBlank
  let (isNegative, text) := if text.head? = some '-' then (true, text.tail) else (false, text)
  let whole := text.takeWhile Char.isDigit
  let fraction := match text.drop whole.length with
    | '.' :: rest => rest.takeWhile Char.isDigit
    | _ => []
  let n : Nat := (Numeral.ofDigits? 10 (whole ++ fraction)).getD 0
  (if isNegative then -(n : Int) else n, Floating.tenTo fraction.length)

def quotients (a b : Int × Nat) : Ordering := compare (a.1 * b.2) (b.1 * a.2)

def numeric (a b : Text) : Ordering := quotients (decimal a) (decimal b)

def scale (text : Text) : Int :=
  let text := text.dropWhile isBlank
  let unsigned := if text.head? = some '-' then text.tail else text
  let rest := unsigned.dropWhile fun c => c.isDigit || c == '.'
  let rank : Nat := match rest with
    | 'k' :: _ => 1
    | c :: _ => (("KMGTPEZYRQ".toList).idxOf? c |>.map (· + 1)).getD 0
    | [] => 0
  if (decimal text).1 = 0 then 0 else if unsigned.length < text.length then -(rank : Int) else rank

def human (a b : Text) : Ordering := (compare (scale a) (scale b)).then (numeric a b)

/-- The number of a month that a text begins with, or zero. -/
def month (text : Text) : Nat :=
  let names := ["JAN", "FEB", "MAR", "APR", "MAY", "JUN", "JUL", "AUG", "SEP", "OCT", "NOV", "DEC"]
  let start := ((text.dropWhile isBlank).take 3).map Char.toUpper
  ((names.map String.toList).idxOf? start |>.map (· + 1)).getD 0

def monthly (a b : Text) : Ordering := compare (month a) (month b)

/-- The rank of what is in front of a text among numbers of any form: no number, none at all, and
the rest. -/
def generalRank (found : Floating.Found) : Nat :=
  if !found.hasDigits then 0 else if found.value.magnitude = .undefined then 1 else 2

def general (a b : Text) : Ordering :=
  let x := Floating.read .extended a
  let y := Floating.read .extended b
  (compare (generalRank x) (generalRank y)).then
    (if x.value.less y.value then .lt else if y.value.less x.value then .gt else .eq)

/-! ## Versions -/

/-- The rank of a character that is no digit. The end of the text comes first but for a tilde. -/
def versionRank : Text → Int
  | [] => -1
  | c :: _ =>
    if c.isDigit then 0
    else if c.isAlpha then c.toNat
    else if c = '~' then -2
    else c.toNat + 256

/-- The order of texts in which runs of digits count as numbers, in at most so many steps. -/
def versionParts : Nat → Text → Text → Ordering
  | 0, _, _ => .eq
  | steps + 1, a, b =>
    let isLetter (text : Text) : Bool := text.head?.any (!·.isDigit)
    if a.isEmpty && b.isEmpty then .eq
    else if isLetter a || isLetter b then
      match compare (versionRank a) (versionRank b) with
      | .eq => versionParts steps a.tail b.tail
      | order => order
    else
      let a := a.dropWhile (· == '0')
      let b := b.dropWhile (· == '0')
      let m := a.takeWhile Char.isDigit
      let n := b.takeWhile Char.isDigit
      match (compare m.length n.length).then (plain m n) with
      | .eq => versionParts steps (a.drop m.length) (b.drop n.length)
      | order => order

/-- The rest of a name behind an ending: a dot, a letter, and letters and digits. -/
def dropEnding? : Text → Option Text
  | '.' :: c :: rest =>
    if c.isAlpha || c == '~' then some (rest.dropWhile fun c => c.isAlphanum || c == '~') else none
  | _ => none

def withoutEndings : Nat → Text → Text
  | 0, _ => []
  | _, [] => []
  | steps + 1, c :: rest =>
    let rec dropAll : Nat → Text → Text
      | 0, text => text
      | steps + 1, text => match dropEnding? text with
        | some rest => dropAll steps rest
        | none => text
    if (dropAll rest.length rest).isEmpty then [c] else c :: withoutEndings steps rest

/-- The rank of a name by the dots in front: nothing, a dot, two dots, names with a dot, others. -/
def dotRank (name : Text) : Nat :=
  if name.isEmpty then 0
  else if name = ['.'] then 1
  else if name = ['.', '.'] then 2
  else if name.head? = some '.' then 3
  else 4

def version (a b : Text) : Ordering :=
  match compare (dotRank a) (dotRank b) with
  | .eq =>
    let steps := a.length + b.length + 1
    if dotRank a < 3 then .eq
    else (versionParts steps (withoutEndings steps a) (withoutEndings steps b)).then
      (versionParts steps a b)
  | order => order

end LineOrder

end FirmwareBuild.Posix
