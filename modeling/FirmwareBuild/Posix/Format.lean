import FirmwareBuild.Posix.Floating
import FirmwareBuild.Posix.Quoting

/-! # Formatted output

What `echo` and `printf` make of their arguments: escapes behind a backslash, and
formats that are gone through again as long as arguments are left. There are two
programs of each name, that of the shell and the one that is installed; `Dialect`
says which of them is meant. -/

namespace FirmwareBuild.Posix

/-- The program whose formats are read. -/
inductive Dialect where
  | shell
  /-- The `echo` that is installed, which has no formats. -/
  | echo
  | installed
  deriving DecidableEq, Repr

/-- How exact numbers with a fraction are, and the bits that the first hexadecimal digit of one
stands for. -/
def Dialect.exactness : Dialect → Exactness × Nat
  | shell => (.double, 1)
  | _ => (.extended, 4)

def octalDigit? (c : Char) : Option Nat :=
  if '0' ≤ c ∧ c ≤ '7' then some (c.toNat - '0'.toNat) else none

/-- The number in at most so many octal digits, and what follows it. -/
def octal : (digits : Nat) → (value : Nat) → Text → Nat × Text
  | digits + 1, value, c :: rest =>
    match octalDigit? c with
    | some d => octal digits (value * 8 + d) rest
    | none => (value, c :: rest)
  | _, value, rest => (value, rest)

/-- The character with the number that an octet wraps round to. -/
def octetChar (n : Nat) : Char := Char.ofNat (n % 256)

def letterEscape? : Char → Option Char
  | 'a' => some '\x07'
  | 'b' => some '\x08'
  | 'e' => some '\x1b'
  | 'f' => some '\x0c'
  | 'n' => some '\n'
  | 'r' => some '\r'
  | 't' => some '\t'
  | 'v' => some '\x0b'
  | '\\' => some '\\'
  | _ => none

/-- What an escape comes to. -/
inductive Escape where
  | means (shown rest : Text)
  /-- The backslash stands for itself. -/
  | none
  /-- Digits are missing, or the number is that of no character. -/
  | broken (isNumber : Bool)

/-- A character by its number, where only those of one octet can be shown. -/
def shownUniversal (n : Nat) : Text :=
  let digits := (Nat.toDigits 16 n).map Char.toUpper
  let padded (width : Nat) : Text := List.replicate (width - digits.length) '0' ++ digits
  if n < 0x80 then [Char.ofNat n]
  else if n < 0x10000 then '\\' :: 'u' :: padded 4
  else '\\' :: 'U' :: padded 8

def hexadecimalEscape (dialect : Dialect) (least most : Nat) (rest : Text) : Escape :=
  let digits := (rest.take most).takeWhile fun c => (Numeral.digit? 16 c).isSome
  let rest := rest.drop digits.length
  match Numeral.ofDigits? 16 digits with
  | some n =>
    if digits.length < least then .broken false
    else if least = 1 then .means [octetChar n] rest
    else if 0xD800 ≤ n ∧ n ≤ 0xDFFF then .broken true
    else .means (shownUniversal n) rest
  | none => if dialect = .echo then .none else .broken false

/-- What an escape stands for, and what follows it. An octal escape has up to three digits;
hexadecimal ones are there only where the program is installed, and protected quotes and characters
by number only in formats. -/
def escape (dialect : Dialect) (rest : Text) : Escape :=
  match rest with
  | [] => .none
  | c :: rest =>
    if (octalDigit? c).isSome then
      let (n, rest) := octal 3 0 (c :: rest)
      .means [octetChar n] rest
    else if dialect ≠ .shell ∧ c = 'x' then hexadecimalEscape dialect 1 2 rest
    else if dialect = .installed ∧ c = 'u' then hexadecimalEscape dialect 4 4 rest
    else if dialect = .installed ∧ c = 'U' then hexadecimalEscape dialect 8 8 rest
    else if dialect = .installed ∧ c = '"' then .means ['"'] rest
    else match letterEscape? c with
      | some d => .means [d] rest
      | none => .none

/-- How a text with escapes ends: as it is, early because of `\c`, or because of an escape that
makes no sense. -/
inductive Ending where
  | whole
  | stopped
  | broken (isNumber : Bool)
  deriving DecidableEq, Repr

/-- A text with its escapes replaced behind what is done, the latest first, and how it ends. A zero
may stand in front of the three digits of an octal escape. -/
def unescapeOnto (dialect : Dialect) : Nat → (done : Text) → Text → Text × Ending
  | 0, done, _ => (done, .whole)
  | _, done, [] => (done, .whole)
  | fuel + 1, done, '\\' :: c :: rest =>
    if c = 'c' then (done, .stopped)
    else
      let zeroFirst := c == '0' && (rest.head?.bind octalDigit?).isSome
      match escape dialect (if zeroFirst then rest else c :: rest) with
      | .means shown rest => unescapeOnto dialect fuel (shown.reverseAux done) rest
      | .none => unescapeOnto dialect fuel ('\\' :: done) (c :: rest)
      | .broken isNumber => (done, .broken isNumber)
  | fuel + 1, done, c :: rest => unescapeOnto dialect fuel (c :: done) rest

def unescape (dialect : Dialect) (text : Text) : Text × Ending :=
  let (done, ending) := unescapeOnto dialect text.length [] text
  (done.reverse, ending)

def echoText (dialect : Dialect) (escapes newline : Bool) (args : List Text) : Text :=
  let line := Text.join [' '] args
  let (shown, ending) := if escapes then unescape dialect line else (line, .whole)
  shown ++ if newline && ending = .whole then ['\n'] else []

structure Layout where
  left : Bool := false
  zeros : Bool := false
  plus : Bool := false
  blank : Bool := false
  alternate : Bool := false
  /-- Digits are grouped in the way of the place, which does nothing here. -/
  grouped : Bool := false
  width : Nat := 0
  precision : Option Nat := none
  /-- There is a point, although a precision that is negative counts as none. -/
  pointed : Bool := false
  sized : Bool := false

namespace Layout

def withSign? (layout : Layout) (dialect : Dialect) : Char → Option Layout
  | '-' => some { layout with left := true }
  | '0' => some { layout with zeros := true }
  | '+' => some { layout with plus := true }
  | ' ' => some { layout with blank := true }
  | '#' => some { layout with alternate := true }
  | '\'' | 'I' => if dialect = .installed then some { layout with grouped := true } else none
  | _ => none

def isPlain (layout : Layout) : Bool :=
  !layout.left && !layout.zeros && !layout.plus && !layout.blank && !layout.alternate &&
    !layout.grouped && layout.width == 0 && !layout.pointed && !layout.sized

/-- Whether what is asked for makes sense for a conversion. Only what is installed minds. -/
def suits (layout : Layout) (dialect : Dialect) (conversion : Char) : Bool :=
  let isText := conversion == 'c' || conversion == 's'
  let isWhole := ['d', 'i', 'u'].contains conversion
  let isQuick := conversion == 'b' || conversion == 'q'
  let letters := "abcdefgiosuxAEFGX".toList
  if dialect = .shell then letters.contains conversion
  else if isQuick then layout.isPlain
  else
    letters.contains conversion && !(layout.alternate && (isText || isWhole)) &&
      !(layout.zeros && isText) && !(layout.pointed && conversion == 'c') &&
      !(layout.grouped && !isWhole && !(['f', 'F', 'g', 'G'].contains conversion))

def longest : Nat := 0x7FFFFFFF

def isTooLong (layout : Layout) (conversion : Char) : Bool :=
  let isText := ['c', 's', 'b'].contains conversion
  layout.width >= longest ||
    layout.precision.any fun n => n > longest || (n = longest && !isText)

def fill (layout : Layout) (text : Text) : Text :=
  let gap := List.replicate (layout.width - text.length) ' '
  if layout.left then text ++ gap else gap ++ text

def showText (layout : Layout) (text : Text) : Text :=
  layout.fill (match layout.precision with
    | some n => text.take n
    | none => text)

def showDigits (layout : Layout) (zeros : Bool) (sign digits : Text) : Text :=
  if zeros && !layout.left then
    sign ++ List.replicate (layout.width - sign.length - digits.length) '0' ++ digits
  else layout.fill (sign ++ digits)

/-- A whole number with its sign. The precision is the least number of digits. -/
def showNumber (layout : Layout) (sign digits : Text) : Text :=
  let digits := match layout.precision with
    | some n =>
      if n = 0 ∧ digits = ['0'] then [] else List.replicate (n - digits.length) '0' ++ digits
    | none => digits
  layout.showDigits (layout.zeros && layout.precision.isNone) sign digits

def signOf (layout : Layout) (isNegative : Bool) : Text :=
  if isNegative then ['-']
  else if layout.plus then ['+']
  else if layout.blank then [' ']
  else []

def showFloating (dialect : Dialect) (layout : Layout) (conversion : Char) (value : Floating) :
    Text :=
  let upper := conversion.isUpper
  let places := layout.precision.getD 6
  let sign := layout.signOf value.isNegative
  let worded (word : String) : Text :=
    layout.fill (sign ++ word.toList.map fun c => if upper then c.toUpper else c)
  match value.magnitude with
  | .infinite => worded "inf"
  | .undefined => worded "nan"
  | .finite n d =>
    let (exactness, leadBits) := dialect.exactness
    let start := if conversion.toLower = 'a' then ['0', if upper then 'X' else 'x'] else []
    let digits := match conversion.toLower with
      | 'a' =>
        (Floating.hexadecimal exactness leadBits layout.precision layout.alternate n d).map
          fun c => if upper then c.toUpper else c
      | 'f' => Floating.fixed places layout.alternate n d
      | 'e' => Floating.scientific conversion places layout.alternate n d
      | _ =>
        Floating.general (if upper then 'E' else 'e') places layout.alternate n d
    layout.showDigits layout.zeros (sign ++ start) digits

end Layout

def digitsIn (base : Nat) (upper : Bool) (n : Nat) : Text :=
  (Nat.toDigits base n).map fun c => if upper then c.toUpper else c

inductive FormatWarning where
  | noNumber (arg : Text)
  | halfNumber (arg : Text)
  | largeNumber (arg : Text)
  deriving DecidableEq, Repr

def FormatWarning.description (dialect : Dialect) : FormatWarning → Text
  | noNumber arg => match dialect with
    | .shell => arg ++ ": expected numeric value".toList
    | _ => '\'' :: arg ++ "': expected a numeric value".toList
  | halfNumber arg => match dialect with
    | .shell => arg ++ ": not completely converted".toList
    | _ => '\'' :: arg ++ "': value not completely converted".toList
  | largeNumber arg => match dialect with
    | .shell => arg ++ ": Numerical result out of range".toList
    | _ => '\'' :: arg ++ "': Numerical result out of range".toList

inductive FormatMistake where
  | noFormat
  | noConversion
  | unknownConversion (conversion : Text)
  | wrongWidth (arg : Text)
  | wrongPrecision (arg : Text)
  | tooLong
  | brokenEscape (isNumber : Bool)
  deriving DecidableEq, Repr

def FormatMistake.description (dialect : Dialect) : FormatMistake → Text
  | noFormat => match dialect with
    | .shell => "usage: printf format [arg ...]".toList
    | _ => "missing operand\nTry 'printf --help' for more information.".toList
  | noConversion => match dialect with
    | .shell => "missing format character".toList
    | _ => "%: invalid conversion specification".toList
  | unknownConversion conversion => match dialect with
    | .shell => conversion ++ ": invalid directive".toList
    | _ => conversion ++ ": invalid conversion specification".toList
  | wrongWidth arg => "invalid field width: '".toList ++ arg ++ ['\'']
  | wrongPrecision arg => "invalid precision: '".toList ++ arg ++ ['\'']
  | tooLong => match dialect with
    | .shell => "xvsnprintf failed".toList
    | _ => "write error".toList
  | brokenEscape true => "invalid universal character name".toList
  | brokenEscape false => "missing hexadecimal number in escape".toList

structure Printing where
  dialect : Dialect
  args : List Text
  consumed : Bool := false
  /-- What was printed, the latest first. -/
  shown : Text := []
  /-- The latest first. -/
  warnings : List FormatWarning := []
  stopped : Bool := false
  mistake : Option FormatMistake := none

namespace Printing

def put (printing : Printing) (text : Text) : Printing :=
  { printing with shown := text.reverseAux printing.shown }

def isOver (printing : Printing) : Bool := printing.stopped || printing.mistake.isSome

def next (printing : Printing) : Option Text × Printing :=
  match printing.args with
  | [] => (none, { printing with consumed := true })
  | arg :: rest => (some arg, { printing with args := rest, consumed := true })

/-- With the warning that an argument deserves that was read as far as this. -/
def warn (printing : Printing) (arg rest : Text) (fits : Bool) : Printing :=
  let warning? :=
    if !rest.isEmpty then
      if rest.length = arg.length then some (FormatWarning.noNumber arg)
      else some (.halfNumber arg)
    else if !fits then some (.largeNumber arg)
    else none
  { printing with warnings := warning?.toList ++ printing.warnings }

/-- The number of the character behind a quote in front of an argument. For the shell a quote alone
counts as zero. -/
def quotedNumber? (dialect : Dialect) : Text → Option Nat
  | ['\''] | ['"'] => if dialect = .shell then some 0 else none
  | '\'' :: c :: _ | '"' :: c :: _ => some c.toNat
  | _ => none

def nextNumber (printing : Printing) : Int × Printing :=
  let (arg, printing) := printing.next
  match arg with
  | none => (0, printing)
  | some arg =>
    match quotedNumber? printing.dialect arg with
    | some n => (n, printing)
    | none =>
      let found := Numeral.read true arg
      (found.value, printing.warn arg found.rest found.fits)

/-- The next argument as a number of 64 bits without a sign. A negative one counts from above. -/
def nextNatural (printing : Printing) : Nat × Printing :=
  let (arg, printing) := printing.next
  match arg with
  | none => (0, printing)
  | some arg =>
    match quotedNumber? printing.dialect arg with
    | some n => (n, printing)
    | none =>
      let found := Numeral.readExact true arg
      let fits := found.value.natAbs < Numeral.wordSize
      let value := if fits then (found.value % Numeral.wordSize).toNat else Numeral.wordSize - 1
      (value, printing.warn arg found.rest fits)

def nextFloating (printing : Printing) : Floating × Printing :=
  let (arg, printing) := printing.next
  let zero : Floating := { isNegative := false, magnitude := .finite 0 1 }
  match arg with
  | none => (zero, printing)
  | some arg =>
    match quotedNumber? printing.dialect arg with
    | some n => ({ zero with magnitude := .finite n 1 }, printing)
    | none =>
      let found := Floating.read printing.dialect.exactness.1 arg
      (if found.hasDigits then found.value else zero, printing.warn arg found.rest found.fits)

/-- A number as 32 bits hold it. -/
def wrapped (n : Int) : Int := (n + 0x80000000) % 0x100000000 - 0x80000000

def nextMeasure (isPrecision : Bool) (printing : Printing) : Int × Printing :=
  let (n, after) := printing.nextNumber
  let arg := printing.args.headD []
  match printing.dialect with
  | .shell => (wrapped n, after)
  | _ =>
    if isPrecision && n < 0 then (-1, after)
    else if wrapped n = n then (n, after)
    else
      let mistake := if isPrecision then FormatMistake.wrongPrecision arg else .wrongWidth arg
      (0, { after with mistake := some mistake })

/-- The signs, the width and the precision of a conversion, and what follows them. -/
def layout : Nat → Layout → Printing → Text → Layout × Printing × Text
  | 0, layout, printing, rest => (layout, printing, rest)
  | fuel + 1, given, printing, c :: rest =>
    match given.withSign? printing.dialect c with
    | some given => layout fuel given printing rest
    | none =>
      let number (isPrecision : Bool) (printing : Printing) (text : Text) :
          Int × Printing × Text :=
        match text with
        | '*' :: rest =>
          let (n, printing) := printing.nextMeasure isPrecision
          (n, printing, rest)
        | text =>
          let digits := text.takeWhile Char.isDigit
          ((Numeral.ofDigits? 10 digits).getD 0, printing, text.drop digits.length)
      let (width, printing, rest) := number false printing (c :: rest)
      let given := { given with width := width.natAbs, left := given.left || decide (width < 0) }
      match rest with
      | '.' :: rest =>
        let (n, printing, rest) := number true printing rest
        let precision := if n < 0 then none else some n.toNat
        ({ given with precision, pointed := true }, printing, rest)
      | rest => (given, printing, rest)
  | _, given, printing, [] => (given, printing, [])

def convert? (layout : Layout) (conversion : Char) (printing : Printing) :
    Option (Text × Printing) :=
  if conversion = 's' then
    let (arg, printing) := printing.next
    some (layout.showText (arg.getD []), printing)
  else if conversion = 'c' then
    let (arg, printing) := printing.next
    some (layout.fill [(arg.getD []).headD '\x00'], printing)
  else if conversion = 'b' then
    let (arg, printing) := printing.next
    let arg := arg.getD []
    let (shown, ending) := unescape printing.dialect arg
    let printing := match ending with
      | .whole => printing
      | .stopped => { printing with stopped := true }
      | .broken isNumber => { printing with mistake := some (.brokenEscape isNumber) }
    some (layout.showText shown, printing)
  else if conversion = 'q' ∧ printing.dialect = .installed then
    let (arg, printing) := printing.next
    some ((arg.map Quoted.whereNeeded).getD [], printing)
  else if conversion = 'd' ∨ conversion = 'i' then
    let (n, printing) := printing.nextNumber
    some (layout.showNumber (layout.signOf (n < 0)) (digitsIn 10 false n.natAbs), printing)
  else if conversion ∈ ['u', 'o', 'x', 'X'] then
    let (n, printing) := printing.nextNatural
    let base := if conversion = 'u' then 10 else if conversion = 'o' then 8 else 16
    let digits := digitsIn base (conversion == 'X') n
    let hasZero := if n = 0 then layout.precision != some 0
      else layout.precision.any fun places => places > digits.length
    let start :=
      if !layout.alternate then []
      else if base = 16 ∧ n ≠ 0 then ['0', conversion]
      else if base = 8 ∧ !hasZero then ['0']
      else []
    some (layout.showNumber start digits, printing)
  else if conversion ∈ ['e', 'E', 'f', 'F', 'g', 'G', 'a', 'A'] then
    let (value, printing) := printing.nextFloating
    some (Layout.showFloating printing.dialect layout conversion value, printing)
  else none

/-- The letters that tell the size of a number, which makes no difference. -/
def sizeLetters : List Char := ['l', 'L', 'h', 'j', 't', 'z']

/-- One time through a format. -/
def once : Nat → Text → Printing → Printing
  | 0, _, printing => printing
  | _, [], printing => printing
  | fuel + 1, '%' :: '%' :: rest, printing => once fuel rest (printing.put ['%'])
  | fuel + 1, '%' :: rest, printing =>
    let (given, printing, left) := layout rest.length {} printing rest
    let sized := printing.dialect = .installed && left.head?.any sizeLetters.contains
    let left := if sized then left.dropWhile sizeLetters.contains else left
    let given := { given with sized }
    if printing.isOver then printing
    else match left with
    | [] => { printing with mistake := some .noConversion }
    | conversion :: left =>
      let unknown :=
        FormatMistake.unknownConversion ('%' :: rest.take (rest.length - left.length))
      if !given.suits printing.dialect conversion then { printing with mistake := some unknown }
      else if given.isTooLong conversion then { printing with mistake := some .tooLong }
      else match convert? given conversion printing with
      | none => { printing with mistake := some unknown }
      | some (shown, printing) =>
        let printing := printing.put shown
        if printing.isOver then printing else once fuel left printing
  | fuel + 1, '\\' :: rest, printing =>
    if printing.dialect = .installed ∧ rest.head? = some 'c' then { printing with stopped := true }
    else
      match escape printing.dialect rest with
      | .means shown rest => once fuel rest (printing.put shown)
      | .none => once fuel rest (printing.put ['\\'])
      | .broken isNumber => { printing with mistake := some (.brokenEscape isNumber) }
  | fuel + 1, c :: rest, printing => once fuel rest (printing.put [c])

/-- Through a format as long as it uses up arguments, in at most so many turns. -/
def turns : Nat → Text → Printing → Printing
  | 0, _, printing => printing
  | fuel + 1, format, printing =>
    let after := once format.length format { printing with consumed := false }
    if after.isOver || after.args.isEmpty || !after.consumed then after
    else turns fuel format after

end Printing

/-- What `printf` prints for a format and its arguments, with what it warns of in order, and why it
stopped in front of the end. -/
def printfText (dialect : Dialect) : List Text → Text × List FormatWarning × Option FormatMistake
  | [] => ([], [], some .noFormat)
  | format :: args =>
    let printing := Printing.turns (args.length + 1) format { dialect, args }
    (printing.shown.reverse, printing.warnings.reverse, printing.mistake)

end FirmwareBuild.Posix
