import FirmwareBuild.Disk
import FirmwareBuild.Posix.Numeral

/-! # Dates

How a date that is given to a program tells a time: by a day and a time of day, by
the seconds since the beginning of 1970, or by how far it is from the present. All
days are those of one time zone, the universal one. -/

namespace FirmwareBuild.Posix

structure Day where
  year : Nat
  month : Nat
  day : Nat
  deriving DecidableEq, Repr

def second : Time := 1000000000

namespace Day

def isLeap (year : Nat) : Bool := year % 4 == 0 && (year % 100 != 0 || year % 400 == 0)

def monthLength (year month : Nat) : Nat :=
  if month = 2 then if isLeap year then 29 else 28
  else if [4, 6, 9, 11].contains month then 30
  else 31

def isValid (day : Day) : Bool :=
  1 ≤ day.month && day.month ≤ 12 && 1 ≤ day.day && day.day ≤ monthLength day.year day.month

/-- The number of days between the beginning of 1970 and a day. -/
def number (day : Day) : Int :=
  let before (year : Nat) : Int :=
    365 * year + (year + 3) / 4 - (year + 99) / 100 + (year + 399) / 400
  let months := Text.total ((List.range (day.month - 1)).map fun m => monthLength day.year (m + 1))
  before day.year - before 1970 + months + day.day - 1

/-- The first of some days from a year on that is so many days behind its beginning, in at most so
many months. -/
def walk : Nat → (year month rest : Nat) → Day
  | 0, year, month, rest => { year, month, day := rest + 1 }
  | steps + 1, year, month, rest =>
    let length := monthLength year month
    if rest < length then { year, month, day := rest + 1 }
    else walk steps (if month = 12 then year + 1 else year) (if month = 12 then 1 else month + 1)
      (rest - length)

/-- The day of a time, which is not before 1970. -/
def ofTime (time : Time) : Day :=
  let days := (time / (86400 * second)).toNat
  let cycles := days / 146097
  walk 4800 (1970 + 400 * cycles) 1 (days % 146097)

def start (day : Day) : Time := day.number * 86400 * second

def monthName (month : Nat) : Text :=
  ((["Jan", "Feb", "Mar", "Apr", "May", "Jun", "Jul", "Aug", "Sep", "Oct", "Nov",
    "Dec"][month - 1]?).getD "").toList

/-- A time as listings show it: the day, and the time of day unless it is long ago or to come. -/
def shownTime (now time : Time) : Text :=
  let day := ofTime time
  let two (fill : Char) (n : Nat) : Text := if n < 10 then fill :: Text.ofNat n else Text.ofNat n
  let minutes := ((time - day.start) / (60 * second)).toNat
  let isNear := time ≤ now && now - time < 15778476 * second
  monthName day.month ++ ' ' :: two ' ' day.day ++ ' ' ::
    if isNear then two '0' (minutes / 60) ++ ':' :: two '0' (minutes % 60)
    else ' ' :: Text.ofNat day.year

end Day

structure DateWords where
  day : Option Day := none
  clock : Option Time := none
  /-- A time that is told by its seconds. -/
  moment : Option Time := none
  /-- How far it is from there. -/
  days : Int := 0
  months : Int := 0
  offset : Time := 0

namespace DateWords

/-- A number with so many digits at most, and what follows it. -/
def number? (most : Nat) (text : Text) : Option (Nat × Text) :=
  let digits := text.takeWhile Char.isDigit
  if digits.length > most then none
  else (Numeral.ofDigits? 10 digits).map (·, text.drop digits.length)

/-- The part of a second that digits behind a point tell. -/
def fraction (digits : Text) : Time :=
  (Numeral.ofDigits? 10 ((digits ++ List.replicate 9 '0').take 9)).getD 0

/-- How far a zone is from the universal one. -/
def zone? (text : Text) : Option Time :=
  match text with
  | [] | ['Z'] | ['z'] | ['U', 'T', 'C'] | ['G', 'M', 'T'] => some 0
  | sign :: rest => do
    let factor : Int ← match sign with
      | '+' => some 1
      | '-' => some (-1)
      | _ => none
    let digits := rest.filter (· ≠ ':')
    let n ← Numeral.ofDigits? 10 digits
    if digits.length ≤ 2 then some (factor * n * 3600 * second)
    else some (factor * (n / 100 * 3600 + n % 100 * 60) * second)

def clock? (text : Text) : Option Time := do
  let (hours, rest) ← number? 2 text
  let rest ← Text.dropStart? [':'] rest
  let (minutes, rest) ← number? 2 rest
  let (seconds, part, rest) ← match rest with
    | ':' :: rest => do
      let (seconds, rest) ← number? 2 rest
      match rest with
      | '.' :: rest | ',' :: rest =>
        let digits := rest.takeWhile Char.isDigit
        if digits.isEmpty then none else some (seconds, fraction digits, rest.drop digits.length)
      | rest => some (seconds, 0, rest)
    | rest => some (0, 0, rest)
  let zone ← zone? rest
  if hours < 24 && minutes < 60 && seconds ≤ 60 then
    some ((hours * 3600 + minutes * 60 + seconds) * second + part - zone)
  else none

def day? (text : Text) : Option (Day × Text) := do
  let (year, rest) ← number? 4 text
  let rest ← Text.dropStart? ['-'] rest
  let (month, rest) ← number? 2 rest
  let rest ← Text.dropStart? ['-'] rest
  let (day, rest) ← number? 2 rest
  let whole : Day := { year, month, day }
  if whole.isValid then some (whole, rest) else none

def shift (words : DateWords) (count : Int) (unit : Text) : Option DateWords :=
  let unit := if unit.length > 3 && unit.getLast? = some 's' then unit.dropLast else unit
  let seconds (n : Int) : Option DateWords :=
    some { words with offset := words.offset + count * n * second }
  match String.ofList (unit.map Char.toLower) with
  | "sec" | "second" => seconds 1
  | "min" | "minute" => seconds 60
  | "hour" => seconds 3600
  | "day" => some { words with days := words.days + count }
  | "week" => some { words with days := words.days + 7 * count }
  | "fortnight" => some { words with days := words.days + 14 * count }
  | "month" => some { words with months := words.months + count }
  | "year" => some { words with months := words.months + 12 * count }
  | _ => none

def count? (word : Text) : Option Int :=
  match word with
  | '+' :: digits => (Numeral.ofDigits? 10 digits).map Int.ofNat
  | '-' :: digits => (Numeral.ofDigits? 10 digits).map fun n => -(n : Int)
  | word =>
    match String.ofList word with
    | "next" => some 1
    | "last" => some (-1)
    | "this" => some 0
    | _ => (Numeral.ofDigits? 10 word).map Int.ofNat

def read? : Nat → List Text → DateWords → Option DateWords
  | 0, _, _ => none
  | _, [], words => some words
  | steps + 1, word :: rest, words =>
    match String.ofList word with
    | "now" | "today" => read? steps rest words
    | "tomorrow" => read? steps rest { words with days := words.days + 1 }
    | "yesterday" => read? steps rest { words with days := words.days - 1 }
    | _ =>
      match word, clock? word, day? word with
      | '@' :: text, _, _ => do
        let (isBefore, text) := match text with
          | '-' :: text => (true, text)
          | text => (false, text)
        let (whole, part) := (Text.splitFirst? '.' text).getD (text, [])
        let seconds ← Numeral.ofDigits? 10 whole
        let size : Time := seconds * second + fraction part
        if part.all Char.isDigit then
          read? steps rest { words with moment := some (if isBefore then -size else size) }
        else none
      | _, some clock, _ => read? steps rest { words with clock := some clock }
      | _, none, some (day, []) => read? steps rest { words with day := some day }
      | _, none, some (day, 'T' :: time) => do
        let clock ← clock? time
        read? steps rest { words with day := some day, clock := some clock }
      | _, none, _ =>
        match count? word, rest, zone? word with
        | some count, unit :: rest, _ => do
          let (count, rest) := if rest.head? = some "ago".toList then (-count, rest.tail)
            else (count, rest)
          read? steps rest (← words.shift count unit)
        | _, _, some zone =>
          if words.clock.isNone then none
          else read? steps rest { words with clock := words.clock.map (· - zone) }
        | _, _, none => do
          let (count, rest) := if rest.head? = some "ago".toList then (-1, rest.tail) else (1, rest)
          read? steps rest (← words.shift count word)

def time (words : DateWords) (now : Time) : Time :=
  match words.moment with
  | some moment => moment
  | none =>
    let today := Day.ofTime now
    let day := words.day.getD today
    let months := (day.year * 12 + (day.month - 1) : Int) + words.months
    let moved : Day := { year := (months / 12).toNat, month := (months % 12).toNat + 1, day := 1 }
    let clock := match words.clock, words.day with
      | some clock, _ => clock
      | none, some _ => 0
      | none, none => now - today.start
    moved.start + (day.day - 1 + words.days) * 86400 * second + clock + words.offset

end DateWords

/-- The time that a date tells, seen from the present. Nothing tells the beginning of the day. -/
def readDate? (now : Time) (text : Text) : Option Time :=
  let words := (Text.split ' ' text).filter (!·.isEmpty)
  if words.isEmpty then some (Day.ofTime now).start
  else (DateWords.read? (words.length + 1) words {}).map fun words => words.time now

/-- The time that eight, ten or twelve digits and perhaps seconds tell. -/
def readStamp? (now : Time) (text : Text) : Option Time := do
  let (minutes, seconds) := (Text.splitFirst? '.' text).getD (text, ['0', '0'])
  if seconds.length ≠ 2 || !(minutes ++ seconds).all Char.isDigit then none
  let digitsOf (start count : Nat) : Nat :=
    (Numeral.ofDigits? 10 ((minutes.drop start).take count)).getD 0
  let first := minutes.length - 8
  let year ← match first with
    | 0 => some (Day.ofTime now).year
    | 2 => some (digitsOf 0 2 + if digitsOf 0 2 < 69 then 2000 else 1900)
    | 4 => some (digitsOf 0 4)
    | _ => none
  let day : Day := { year, month := digitsOf first 2, day := digitsOf (first + 2) 2 }
  let hour := digitsOf (first + 4) 2
  let minute := digitsOf (first + 6) 2
  let rest ← Numeral.ofDigits? 10 seconds
  if minutes.length < 8 || !day.isValid || hour > 23 || minute > 59 || rest > 60 then none
  else some (day.start + (hour * 3600 + minute * 60 + rest) * second)

end FirmwareBuild.Posix
