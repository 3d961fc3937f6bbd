import FirmwareBuild.Text

/-! # UTF-8

Writing text as octets, and reading octets as text. The reader goes octet by
octet and keeps the part of a character it has seen so far; where an octet
cannot go on with that part, the part is broken off and the octet starts afresh.
So a broken sequence yields one gap for each longest part that begins some
character, and nothing that follows it is lost. `scan` shows the gaps; `decode?`
refuses them and `decodeLossy` puts U+FFFD in their place. -/

namespace FirmwareBuild.Utf8

def encodeChar (c : Char) : Bytes := String.utf8EncodeChar c

def encode (t : Text) : Bytes := t.flatMap encodeChar

inductive State where
  | start
  /-- Inside a character of which `value` has been read: an octet from `low` to `high`
  comes next and then `more` further ones. -/
  | inside (more value low high : Nat)
  deriving DecidableEq, Repr

/-- A character, or a gap, that an octet completes, and the state after it, for an octet
between two characters. -/
def lead (b : Nat) : List (Option Char) × State :=
  if b < 0x80 then ([some (Char.ofNat b)], .start)
  else if b < 0xC2 then ([none], .start)
  else if b < 0xE0 then ([], .inside 0 (b - 0xC0) 0x80 0xBF)
  else if b < 0xF0 then
    ([], .inside 1 (b - 0xE0) (if b = 0xE0 then 0xA0 else 0x80) (if b = 0xED then 0x9F else 0xBF))
  else if b < 0xF5 then
    ([], .inside 2 (b - 0xF0) (if b = 0xF0 then 0x90 else 0x80) (if b = 0xF4 then 0x8F else 0xBF))
  else ([none], .start)

def step : State → Nat → List (Option Char) × State
  | .start, b => lead b
  | .inside more value low high, b =>
    if low ≤ b ∧ b ≤ high then
      match more with
      | 0 => ([some (Char.ofNat (value * 64 + (b - 0x80)))], .start)
      | more + 1 => ([], .inside more (value * 64 + (b - 0x80)) 0x80 0xBF)
    else (none :: (lead b).1, (lead b).2)

def scanFrom : State → Bytes → List (Option Char)
  | .start, [] => []
  | .inside _ _ _ _, [] => [none]
  | s, b :: bs => (step s b.toNat).1 ++ scanFrom (step s b.toNat).2 bs

/-- The characters of a sequence, with `none` for each longest part that only begins one. -/
def scan (bs : Bytes) : List (Option Char) := scanFrom .start bs

def isText (bs : Bytes) : Bool := (scan bs).all Option.isSome

/-- The text of a sequence, with U+FFFD for each broken part. -/
def decodeLossy (bs : Bytes) : Text := (scan bs).map (·.getD '\uFFFD')

def decode? (bs : Bytes) : Option Text := if isText bs then some (decodeLossy bs) else none

end FirmwareBuild.Utf8
