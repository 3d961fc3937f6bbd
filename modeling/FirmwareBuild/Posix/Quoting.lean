import FirmwareBuild.Text

/-! # Quoted text

How programs show names and arguments so that it can be seen where they begin and
end: in a form that a shell reads as the same text, or with backslashes. Characters
that cannot be printed are shown by a letter or by three octal digits. -/

namespace FirmwareBuild.Posix

def isPrintable (c : Char) : Bool := ' ' ≤ c && c ≤ '~'

/-- What stands behind the backslash for a character that cannot be printed. -/
def escapeName (c : Char) : Text :=
  match c with
  | '\x07' => ['a']
  | '\x08' => ['b']
  | '\x0c' => ['f']
  | '\n' => ['n']
  | '\r' => ['r']
  | '\t' => ['t']
  | '\x0b' => ['v']
  | c => [c.toNat / 64 % 8, c.toNat / 8 % 8, c.toNat % 8].map Nat.digitChar

namespace Quoted

/-- The characters that never need quotes. -/
def isPlain (c : Char) : Bool := c.isAlphanum || "%+,-./:]_@".toList.contains c

def isNeeded (text : Text) : Bool :=
  let isolated (c : Char) : Bool := ['\x7b', '\x7d'].contains c
  let special (c : Char) : Bool :=
    !isPlain c && !isolated c && !(['#', '~'].contains c)
  text.isEmpty || text.any special || text.head?.any (['#', '~'].contains ·) ||
    (text.length == 1 && text.any isolated)

/-- Whether double quotes change nothing in a text. -/
def fitsDouble (text : Text) : Bool :=
  text.zipIdx.all fun (c, i) =>
    isPlain c || c == ' ' || c == '\'' || (['#', '~'].contains c && i == 0) ||
      (['\x7b', '\x7d'].contains c && text.length == 1)

/-- A text in single quotes. Escapes stand in quotes of their own, behind a dollar sign. -/
def single : (inEscape : Bool) → Text → Text
  | _, [] => []
  | inEscape, c :: rest =>
    if !isPrintable c then
      (if inEscape then [] else ['\'', '$', '\'']) ++ '\\' :: escapeName c ++ single true rest
    else if c = '\'' then ['\'', '\\', '\'', '\''] ++ single false rest
    else (if inEscape then ['\'', '\''] else []) ++ c :: single false rest

def always (text : Text) : Text :=
  if text.contains '\'' && fitsDouble text then '"' :: text ++ ['"']
  else '\'' :: single false text ++ ['\'']

def whereNeeded (text : Text) : Text := if isNeeded text then always text else text

/-- A name in front of a colon: in quotes if a shell needs them or if it has a colon itself. -/
def name (text : Text) : Text :=
  if isNeeded text || text.contains ':' then always text else text

/-- A text in quotes, with backslashes in front of quotes and backslashes. -/
def escaped (text : Text) : Text :=
  '\'' :: (text.flatMap fun c =>
    if !isPrintable c then '\\' :: escapeName c
    else if c = '\'' ∨ c = '\\' then ['\\', c]
    else [c]) ++ ['\'']

end Quoted

end FirmwareBuild.Posix
