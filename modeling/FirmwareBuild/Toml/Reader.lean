import FirmwareBuild.Toml.Scalar

/-! # Reading TOML

A reader for TOML 1.0. Each function takes the text that is left and gives what it
read with the text after it. The functions for nested values carry a bound on
their steps, which starts above the length of the text. Values are nested at most
79 deep, and a dotted key has at most 79 parts. -/

namespace FirmwareBuild.Toml

def isSpace (c : Char) : Bool := c == ' ' || c == '\t'

def skipSpace (s : Text) : Text := s.dropWhile isSpace

def newline? : Text → Option Text
  | '\n' :: rest => some rest
  | '\r' :: '\n' :: rest => some rest
  | _ => none

def isPlain (c : Char) : Bool := c == '\t' || (0x20 ≤ c.toNat && c.toNat != 0x7F)

/-- The text after the rest of a line that holds nothing but space and a comment. -/
def endOfLine? (s : Text) : Option Text :=
  let rest := match skipSpace s with
    | '#' :: comment => comment.dropWhile isPlain
    | rest => rest
  if rest.isEmpty then some [] else newline? rest

/-- The text from the next item of an array on, past space, line ends and comments. -/
def skipFiller : (inComment : Bool) → Text → Option Text
  | false, [] => some []
  | true, [] => none
  | _, '\n' :: rest => skipFiller false rest
  | _, '\r' :: '\n' :: rest => skipFiller false rest
  | true, c :: rest => if isPlain c then skipFiller true rest else none
  | false, '#' :: rest => skipFiller true rest
  | false, c :: rest => if isSpace c then skipFiller false rest else some (c :: rest)

def shortEscape? : Char → Option Char
  | 'b' => some '\x08'
  | 't' => some '\t'
  | 'n' => some '\n'
  | 'f' => some '\x0c'
  | 'r' => some '\r'
  | '"' => some '"'
  | '\\' => some '\\'
  | _ => none

def scalarOf? (digits : Text) : Option Char :=
  if digits.all (isDigitIn 16) then
    let n := numberOf 16 digits
    if n < 0xD800 ∨ (0xE000 ≤ n ∧ n < 0x110000) then some (Char.ofNat n) else none
  else none

def basicString? : Text → Option (Text × Text)
  | [] => none
  | '"' :: rest => some ([], rest)
  | '\\' :: 'u' :: a :: b :: c :: d :: rest => do
    let x ← scalarOf? [a, b, c, d]
    let (text, rest) ← basicString? rest
    some (x :: text, rest)
  | '\\' :: 'U' :: a :: b :: c :: d :: e :: f :: g :: h :: rest => do
    let x ← scalarOf? [a, b, c, d, e, f, g, h]
    let (text, rest) ← basicString? rest
    some (x :: text, rest)
  | '\\' :: c :: rest => do
    let x ← shortEscape? c
    let (text, rest) ← basicString? rest
    some (x :: text, rest)
  | c :: rest =>
    if isPlain c && c != '\\' then (basicString? rest).map fun (text, rest) => (c :: text, rest)
    else none

def literalString? (s : Text) : Option (Text × Text) :=
  let text := s.takeWhile (fun c => isPlain c && c != '\'')
  match s.dropWhile (fun c => isPlain c && c != '\'') with
  | '\'' :: rest => some (text, rest)
  | _ => none

/-- The text of a string over several lines up to its closing quotes, of which two more may stand
before the last three. After a backslash at the end of a line, `skipping` is on and the space up
to the next character is left out. -/
def multilineBasic? : (skipping : Bool) → Text → Option (Text × Text)
  | _, [] => none
  | _, '"' :: '"' :: '"' :: '"' :: '"' :: rest => some (['"', '"'], rest)
  | _, '"' :: '"' :: '"' :: '"' :: rest => some (['"'], rest)
  | _, '"' :: '"' :: '"' :: rest => some ([], rest)
  | skipping, '\n' :: rest =>
    if skipping then multilineBasic? true rest
    else (multilineBasic? false rest).map fun (text, rest) => ('\n' :: text, rest)
  | skipping, '\r' :: '\n' :: rest =>
    if skipping then multilineBasic? true rest
    else (multilineBasic? false rest).map fun (text, rest) => ('\n' :: text, rest)
  | _, '\\' :: 'u' :: a :: b :: c :: d :: rest => do
    let x ← scalarOf? [a, b, c, d]
    let (text, rest) ← multilineBasic? false rest
    some (x :: text, rest)
  | _, '\\' :: 'U' :: a :: b :: c :: d :: e :: f :: g :: h :: rest => do
    let x ← scalarOf? [a, b, c, d, e, f, g, h]
    let (text, rest) ← multilineBasic? false rest
    some (x :: text, rest)
  | _, '\\' :: c :: rest =>
    if (newline? (skipSpace (c :: rest))).isSome then multilineBasic? true rest
    else do
      let x ← shortEscape? c
      let (text, rest) ← multilineBasic? false rest
      some (x :: text, rest)
  | skipping, c :: rest =>
    if skipping && isSpace c then multilineBasic? true rest
    else if isPlain c && c != '\\' then
      (multilineBasic? false rest).map fun (text, rest) => (c :: text, rest)
    else none

def multilineLiteral? : Text → Option (Text × Text)
  | [] => none
  | '\'' :: '\'' :: '\'' :: '\'' :: '\'' :: rest => some (['\'', '\''], rest)
  | '\'' :: '\'' :: '\'' :: '\'' :: rest => some (['\''], rest)
  | '\'' :: '\'' :: '\'' :: rest => some ([], rest)
  | '\n' :: rest => (multilineLiteral? rest).map fun (text, rest) => ('\n' :: text, rest)
  | '\r' :: '\n' :: rest => (multilineLiteral? rest).map fun (text, rest) => ('\n' :: text, rest)
  | c :: rest =>
    if isPlain c then (multilineLiteral? rest).map fun (text, rest) => (c :: text, rest) else none

def dropNewline (s : Text) : Text := (newline? s).getD s

def string? : Text → Option (Text × Text)
  | '"' :: '"' :: '"' :: rest => multilineBasic? false (dropNewline rest)
  | '\'' :: '\'' :: '\'' :: rest => multilineLiteral? (dropNewline rest)
  | '"' :: rest => basicString? rest
  | '\'' :: rest => literalString? rest
  | _ => none

def isBare (c : Char) : Bool := c.isAlphanum || c == '_' || c == '-'

def keyPart? : Text → Option (Text × Text)
  | '"' :: rest => basicString? rest
  | '\'' :: rest => literalString? rest
  | s =>
    let part := s.takeWhile isBare
    if part.isEmpty then none else some (part, s.dropWhile isBare)

def keyParts? : Nat → Text → Option (List Text × Text)
  | 0, _ => none
  | steps + 1, s => do
    let (part, rest) ← keyPart? (skipSpace s)
    match skipSpace rest with
    | '.' :: rest => (keyParts? steps rest).map fun (parts, rest) => (part :: parts, rest)
    | rest => some ([part], rest)

/-- The greatest number of parts of a key, and the greatest depth of a value. -/
def limit : Nat := 79

def key? (s : Text) : Option (List Text × Text) := do
  let (parts, rest) ← keyParts? (s.length + 1) s
  if parts.length ≤ limit then some (parts, rest) else none

mutual

def value? : Nat → (depth : Nat) → Text → Option (Toml × Text)
  | 0, _, _ => none
  | steps + 1, depth, s =>
    match s, depth with
    | '"' :: _, _ | '\'' :: _, _ => (string? s).map fun (text, rest) => (.string text, rest)
    | '[' :: _, 0 | '{' :: _, 0 => none
    | '[' :: rest, depth + 1 => do
      let rest ← skipFiller false rest
      match rest with
      | ']' :: rest => some (.array [], rest)
      | _ => (items? steps depth rest).map fun (items, rest) => (.array items, rest)
    | '{' :: rest, depth + 1 =>
      match skipSpace rest with
      | '}' :: rest => some (.table .inline [], rest)
      | _ => do
        let (pairs, rest) ← pairs? steps depth rest
        let entries ← addPairs? pairs []
        some (.table .inline entries, rest)
    | _, _ => scalar? s

/-- One or more items of an array up to its bracket. A comma may follow the last one. -/
def items? : Nat → (depth : Nat) → Text → Option (List Toml × Text)
  | 0, _, _ => none
  | steps + 1, depth, s => do
    let (item, rest) ← value? steps depth s
    let rest ← skipFiller false rest
    match rest with
    | ']' :: rest => some ([item], rest)
    | ',' :: rest => do
      let rest ← skipFiller false rest
      match rest with
      | ']' :: rest => some ([item], rest)
      | _ => (items? steps depth rest).map fun (items, rest) => (item :: items, rest)
    | _ => none

def pairs? : Nat → (depth : Nat) → Text → Option (List (List Text × Toml) × Text)
  | 0, _, _ => none
  | steps + 1, depth, s => do
    let (key, rest) ← key? s
    let '=' :: rest := rest | none
    let (value, rest) ← value? steps depth (skipSpace rest)
    match skipSpace rest with
    | '}' :: rest => some ([(key, value)], rest)
    | ',' :: rest =>
      (pairs? steps depth rest).map fun (pairs, rest) => ((key, value) :: pairs, rest)
    | _ => none

end

inductive Statement where
  | pair (key : List Text) (value : Toml)
  | header (isElement : Bool) (path : List Text)
  deriving Inhabited

/-- A header with one or two brackets that starts after the opening ones. -/
def header? (isElement : Bool) (s : Text) : Option (Statement × Text) := do
  let (path, rest) ← key? s
  let rest ← Text.dropStart? (if isElement then [']', ']'] else [']']) rest
  (endOfLine? rest).map (.header isElement path, ·)

def pair? (s : Text) : Option (Statement × Text) := do
  let (key, rest) ← key? s
  let '=' :: rest := rest | none
  let (value, rest) ← value? (2 * s.length + 2) limit (skipSpace rest)
  (endOfLine? rest).map (.pair key value, ·)

def statements? : Nat → Text → Option (List Statement)
  | 0, _ => none
  | steps + 1, s =>
    match skipSpace s with
    | [] => some []
    | '[' :: '[' :: rest => do
      let (statement, rest) ← header? true rest
      (statements? steps rest).map (statement :: ·)
    | '[' :: rest => do
      let (statement, rest) ← header? false rest
      (statements? steps rest).map (statement :: ·)
    | s =>
      match endOfLine? s with
      | some rest => statements? steps rest
      | none => do
        let (statement, rest) ← pair? s
        (statements? steps rest).map (statement :: ·)

def group : List Statement → List (List Text × Toml) × List Section
  | [] => ([], [])
  | .pair key value :: rest =>
    let (pairs, sections) := group rest
    ((key, value) :: pairs, sections)
  | .header isElement path :: rest =>
    let (pairs, sections) := group rest
    ([], { isElement, path, pairs } :: sections)

/-- The entries of the document that a text writes. A mark of the octet order at the start does
not count. -/
def read? (s : Text) : Option Entries := do
  let s := (Text.dropStart? ['\uFEFF'] s).getD s
  let statements ← statements? (s.length + 1) s
  let (pairs, sections) := group statements
  assemble? pairs sections

end FirmwareBuild.Toml
