import FirmwareBuild.Text

/-! # Shell scripts

The parts of a script for the POSIX shell: words that are still to be expanded,
and commands made of them. A shell works on octets and gives a meaning to some of
the ASCII ones only. So all its text is a list of characters below 256, one for
each octet; `ofOctets` and `toOctets` go from the one to the other. -/

namespace FirmwareBuild.Posix

/-- Octets as the characters with the same numbers. -/
def ofOctets (octets : Bytes) : Text := octets.map fun octet => Char.ofNat octet.toNat

def toOctets (text : Text) : Bytes := text.map fun c => UInt8.ofNat c.toNat

/-- Every number of an octet is the number of a character. -/
theorem toNat_ofNat_of_lt {n : Nat} (h : n < 256) : (Char.ofNat n).toNat = n := by
  have hv : n.isValidChar := .inl (by omega)
  rw [Char.ofNat, dif_pos hv]
  rfl

/-- No octet is lost on the way to characters and back. -/
theorem toOctets_ofOctets (octets : Bytes) : toOctets (ofOctets octets) = octets := by
  induction octets with
  | nil => rfl
  | cons octet rest ih =>
    have hc := toNat_ofNat_of_lt octet.toNat_lt
    simpa [toOctets, ofOctets, hc] using ih

inductive ParameterUse where
  | value
  /-- The number of its octets. -/
  | length
  /-- A word in its place when it is unset, or also when it is empty. -/
  | default (orEmpty : Bool)
  /-- A word in its place that it is set to from then on. -/
  | assign (orEmpty : Bool)
  /-- A word in its place when it is there. -/
  | alternative (orEmpty : Bool)
  /-- The end of the script when it is missing. -/
  | require (orEmpty : Bool)
  /-- The value without a start that matches a pattern. -/
  | dropStart (longest : Bool)
  /-- The value without an end that matches a pattern. -/
  | dropEnd (longest : Bool)
  /-- Nothing that there is. The script ends when it gets here. -/
  | unknown
  deriving DecidableEq, Repr

inductive OpenMode where
  | read
  /-- Emptied and written, unless files are to be kept. -/
  | write
  /-- Emptied and written in any case. -/
  | replace
  | append
  | update
  deriving DecidableEq, Repr

mutual

inductive Part where
  | plain (text : Text)
  /-- Characters in single quotes or behind a backslash. -/
  | quoted (text : Text)
  | doubleQuoted (parts : List Part)
  | parameter (name : Text) (use : ParameterUse) (word : List Part)
  | output (body : Script)
  | arithmetic (expression : List Part)

inductive Redirect where
  | file (stream : Nat) (mode : OpenMode) (target : List Part)
  /-- To where the stream leads that a word names, or nowhere. -/
  | copy (stream : Nat) (source : List Part)
  | document (stream : Nat) (number : Nat)

/-- A command. Where complaints name a line, the command knows its own. -/
inductive Script where
  | simple (line : Nat) (assignments : List (Text × List Part)) (words : List (List Part))
      (redirects : List Redirect)
  | pipeline (stages : List Script)
  | negate (command : Script)
  /-- The second command follows if the first succeeds. -/
  | both (first second : Script)
  /-- The second command follows if the first fails. -/
  | either (first second : Script)
  | sequence (commands : List Script)
  /-- Commands in a shell of their own. -/
  | subshell (line : Nat) (body : Script) (redirects : List Redirect)
  | background (body : Script)
  | branch (condition body otherwise : Script)
  /-- A command that is repeated while a condition succeeds, or until it does. -/
  | loop (untilSuccess : Bool) (condition body : Script)
  | each (line : Nat) (name : Text) (words : List (List Part)) (body : Script)
  | choose (line : Nat) (subject : List Part) (arms : List (List (List Part) × Script))
  | define (name : Text) (body : Script)
  | redirected (line : Nat) (body : Script) (redirects : List Redirect)

end

abbrev Word := List Part

def Script.nothing : Script := .sequence []

instance : Inhabited Script := ⟨.nothing⟩

def startsName (c : Char) : Bool := c.isAlpha || c == '_'

def inName (c : Char) : Bool := c.isAlphanum || c == '_'

def isName : Text → Bool
  | [] => false
  | c :: rest => startsName c && rest.all inName

end FirmwareBuild.Posix
