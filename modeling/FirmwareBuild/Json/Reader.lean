import FirmwareBuild.Json

/-! # Reading JSON

A reader for the grammar of RFC 8259. Each function takes the text that is left
and gives what it read with the text after it. The functions for nested values
carry a bound on their depth; `Json.read?` starts with one that no text can
exceed, since each step down goes with a character. -/

namespace FirmwareBuild.Json

/-- The four characters that may stand between the parts of a text. -/
def isSpace (c : Char) : Bool := c == ' ' || c == '\n' || c == '\t' || c == '\r'

def skipSpace (s : Text) : Text := s.dropWhile isSpace

/-- A part of a string: a character, or half of a surrogate pair. -/
inductive Piece where
  | char (c : Char)
  | half (code : Nat)
  deriving DecidableEq, Repr

def hexDigit? (c : Char) : Option Nat :=
  if c.isDigit then some (c.toNat - '0'.toNat)
  else if 'a' ≤ c ∧ c ≤ 'f' then some (c.toNat - 'a'.toNat + 10)
  else if 'A' ≤ c ∧ c ≤ 'F' then some (c.toNat - 'A'.toNat + 10)
  else none

def hexNumber? (digits : Text) : Option Nat :=
  digits.foldlM (fun n c => (hexDigit? c).map (n * 16 + ·)) 0

/-- What a four-digit escape stands for. -/
def pieceOfCode (code : Nat) : Piece :=
  if 0xD800 ≤ code ∧ code ≤ 0xDFFF then .half code else .char (Char.ofNat code)

def shortEscape? : Char → Option Char
  | '"' => some '"'
  | '\\' => some '\\'
  | '/' => some '/'
  | 'b' => some '\x08'
  | 'f' => some '\x0c'
  | 'n' => some '\n'
  | 'r' => some '\r'
  | 't' => some '\t'
  | _ => none

/-- The parts of a string up to its closing quote. -/
def pieces? : Text → Option (List Piece × Text)
  | [] => none
  | '"' :: rest => some ([], rest)
  | '\\' :: 'u' :: a :: b :: c :: d :: rest => do
    let code ← hexNumber? [a, b, c, d]
    let (pieces, rest) ← pieces? rest
    some (pieceOfCode code :: pieces, rest)
  | '\\' :: c :: rest => do
    let c ← shortEscape? c
    let (pieces, rest) ← pieces? rest
    some (.char c :: pieces, rest)
  | c :: rest =>
    if c.toNat < 0x20 then none
    else do
      let (pieces, rest) ← pieces? rest
      some (.char c :: pieces, rest)

/-- The text of a string: two halves in the right order make one character, and a half on its
own leaves the string without a text. -/
def textOfPieces? : List Piece → Option Text
  | [] => some []
  | .char c :: rest => (textOfPieces? rest).map (c :: ·)
  | .half high :: .half low :: rest =>
    if high < 0xDC00 ∧ 0xDC00 ≤ low then
      (textOfPieces? rest).map
        (Char.ofNat (0x10000 + (high - 0xD800) * 0x400 + (low - 0xDC00)) :: ·)
    else none
  | .half _ :: _ => none

/-- The text of a string that starts after its opening quote. -/
def string? (s : Text) : Option (Option Text × Text) :=
  (pieces? s).map fun (pieces, rest) => (textOfPieces? pieces, rest)

def digits? (s : Text) : Option (Text × Text) :=
  let digits := s.takeWhile Char.isDigit
  if digits.isEmpty then none else some (digits, s.dropWhile Char.isDigit)

def fraction? : Text → Option (Text × Text)
  | '.' :: s => (digits? s).map fun (digits, rest) => ('.' :: digits, rest)
  | s => some ([], s)

def exponent? : Text → Option (Text × Text)
  | [] => some ([], [])
  | e :: s =>
    if e = 'e' ∨ e = 'E' then
      match s with
      | [] => none
      | sign :: rest =>
        if sign = '+' ∨ sign = '-' then
          (digits? rest).map fun (digits, rest) => (e :: sign :: digits, rest)
        else (digits? s).map fun (digits, rest) => (e :: digits, rest)
    else some ([], e :: s)

/-- A number without its sign. A zero is not followed by further digits. -/
def magnitude? (s : Text) : Option (Text × Text) := do
  let (whole, rest) ← digits? s
  if whole.head? = some '0' ∧ whole ≠ ['0'] then none
  else
    let (fraction, rest) ← fraction? rest
    let (exponent, rest) ← exponent? rest
    some (whole ++ fraction ++ exponent, rest)

def number? : Text → Option (Text × Text)
  | '-' :: s => (magnitude? s).map fun (spelling, rest) => ('-' :: spelling, rest)
  | s => magnitude? s

mutual

def value? : Nat → Text → Option (Json × Text)
  | 0, _ => none
  | depth + 1, s =>
    match skipSpace s with
    | '"' :: rest => (string? rest).map fun (text, rest) => (.string text, rest)
    | '[' :: rest =>
      match skipSpace rest with
      | ']' :: rest => some (.array [], rest)
      | _ => (items? depth rest).map fun (items, rest) => (.array items, rest)
    | '{' :: rest =>
      match skipSpace rest with
      | '}' :: rest => some (.object [], rest)
      | _ => (members? depth rest).map fun (members, rest) => (.object members, rest)
    | 'n' :: 'u' :: 'l' :: 'l' :: rest => some (.null, rest)
    | 't' :: 'r' :: 'u' :: 'e' :: rest => some (.bool true, rest)
    | 'f' :: 'a' :: 'l' :: 's' :: 'e' :: rest => some (.bool false, rest)
    | s => (number? s).map fun (spelling, rest) => (.number spelling, rest)

def items? : Nat → Text → Option (List Json × Text)
  | 0, _ => none
  | depth + 1, s => do
    let (item, rest) ← value? depth s
    match skipSpace rest with
    | ']' :: rest => some ([item], rest)
    | ',' :: rest => (items? depth rest).map fun (items, rest) => (item :: items, rest)
    | _ => none

def members? : Nat → Text → Option (List (Option Text × Json) × Text)
  | 0, _ => none
  | depth + 1, s => do
    let '"' :: rest := skipSpace s | none
    let (name, rest) ← string? rest
    let ':' :: rest := skipSpace rest | none
    let (value, rest) ← value? depth rest
    match skipSpace rest with
    | '}' :: rest => some ([(name, value)], rest)
    | ',' :: rest =>
      (members? depth rest).map fun (members, rest) => ((name, value) :: members, rest)
    | _ => none

end

/-- The value that a text writes, with nothing but space around it. -/
def read? (s : Text) : Option Json := do
  let (value, rest) ← value? (2 * s.length + 2) s
  if (skipSpace rest).isEmpty then some value else none

end FirmwareBuild.Json
