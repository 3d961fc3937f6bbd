import FirmwareBuild.Text

/-! # Modes of files

The rights of a file as a number: to read, write and execute it, for its owner, its
group and all others, and three more in front of these. A mode is given by octal
digits or by clauses such as `u+x`. -/

namespace FirmwareBuild.Posix.Mode

/-- The rights that are not in a mask. -/
def without (mode mask : Nat) : Nat := mode - (mode &&& mask)

/-- All rights to read, write and execute. -/
def everything : Nat := 0x1FF

/-- All rights there are. -/
def complete : Nat := 0xFFF

/-- The rights to execute, for everyone. -/
def execution : Nat := 0x49

/-- To run as the owner and as the group of the file. -/
def borrowing : Nat := 0xC00

/-- To remove from a directory what belongs to someone else. -/
def sticky : Nat := 0x200

inductive Operation where
  | add
  | remove
  | assign
  deriving DecidableEq, Repr

inductive Rights where
  | these (rights : Nat)
  /-- The rights, and to execute what someone can execute, or enter a directory. -/
  | executed (rights : Nat)
  /-- The rights that some users have, for everyone. -/
  | copied (users : Nat)
  deriving DecidableEq, Repr

/-- One change of a mode. Where it names no users it concerns all of them, except for what a mask
leaves alone. -/
structure Change where
  operation : Operation
  rights : Rights
  users : Option Nat := none
  /-- The rights that are told of, so that they change for a directory too. -/
  told : Nat

def ofOctal? (text : Text) : Option Nat :=
  if text.isEmpty then none
  else text.foldlM (fun n c =>
    let next := n * 8 + (c.toNat - '0'.toNat)
    if '0' ≤ c ∧ c ≤ '7' ∧ next ≤ complete then some next else none) 0

def usersOf (letters : Text) : Nat :=
  letters.foldl (fun mask c =>
    mask ||| match c with
      | 'u' => 0x9C0
      | 'g' => 0x438
      | 'o' => 0x207
      | _ => complete) 0

/-- The rights that a letter stands for, for everyone. -/
def rightsOf : Char → Option Nat
  | 'r' => some 0x124
  | 'w' => some 0x92
  | 'x' => some execution
  | 'X' => some 0
  | 's' => some borrowing
  | 't' => some sticky
  | _ => none

def rightsOfAll? (letters : Text) : Option Rights :=
  match letters with
  | ['u'] => some (.copied 0x1C0)
  | ['g'] => some (.copied 0x38)
  | ['o'] => some (.copied 0x7)
  | letters =>
    (letters.foldlM (fun rights c => (rightsOf c).map (rights ||| ·)) 0).map fun rights =>
      if letters.contains 'X' then .executed rights else .these rights

def operation? : Char → Option Operation
  | '+' => some .add
  | '-' => some .remove
  | '=' => some .assign
  | _ => none

def operations? (users : Option Nat) : Nat → Text → Option (List Change)
  | 0, _ => none
  | _, [] => some []
  | steps + 1, sign :: rest => do
    let operation ← operation? sign
    let letters := rest.takeWhile fun c => (operation? c).isNone
    let others := rest.drop letters.length
    if letters.head?.any Char.isDigit then
      let rights ← ofOctal? letters
      if users.isSome || !others.isEmpty then none
      else some [{ operation, rights := .these rights, users := some complete, told := complete }]
    else
      let rights ← rightsOfAll? letters
      let own := match rights with
        | .these rights | .executed rights => rights
        | .copied users => users
      let more ← operations? users steps others
      some ({ operation, rights, users, told := own &&& users.getD complete } :: more)

def clause? (text : Text) : Option (List Change) :=
  let users := text.takeWhile fun c => ['u', 'g', 'o', 'a'].contains c
  let rest := text.drop users.length
  if rest.isEmpty then none
  else operations? (if users.isEmpty then none else some (usersOf users)) (text.length + 1) rest

/-- The changes that a text tells of. Few digits do not tell of what only directories have. -/
def read? (text : Text) : Option (List Change) :=
  if text.head?.any fun c => '0' ≤ c ∧ c ≤ '7' then do
    let rights ← ofOctal? text
    let told := if text.length < 5 then (rights &&& borrowing) ||| sticky ||| everything
      else complete
    some [{ operation := .assign, rights := .these rights, users := some complete, told }]
  else ((Text.split ',' text).mapM clause?).map List.flatten

/-- The rights of some users, for everyone. -/
def spread (rights : Nat) : Nat :=
  let masks := [0x124, 0x92, 0x49].filter fun mask => rights &&& mask != 0
  masks.foldl (· ||| ·) rights

def Change.apply (change : Change) (isDirectory : Bool) (mask mode : Nat) : Nat :=
  let omitted := if isDirectory then without borrowing change.told else 0
  let rights := match change.rights with
    | .these rights => rights
    | .executed rights =>
      if isDirectory || mode &&& execution != 0 then rights ||| execution else rights
    | .copied users => spread (mode &&& users)
  let limited := match change.users with
    | some users => rights &&& users
    | none => without rights mask
  let rights := without limited omitted
  match change.operation with
  | .add => mode ||| rights
  | .remove => without mode rights
  | .assign =>
    let kept := match change.users with
      | some users => without mode users ||| (mode &&& omitted)
      | none => mode &&& omitted
    kept ||| rights

def after (changes : List Change) (isDirectory : Bool) (mask mode : Nat) : Nat :=
  changes.foldl (fun mode change => change.apply isDirectory mask mode) mode

def letters (mode : Nat) : Text :=
  let kinds := [(0x100, 0x80, 0x40, 0x800, 's'), (0x20, 0x10, 0x8, 0x400, 's'),
    (0x4, 0x2, 0x1, 0x200, 't')]
  kinds.flatMap fun (read, write, execute, special, letter) =>
    let has (bit : Nat) : Bool := mode &&& bit != 0
    [if has read then 'r' else '-', if has write then 'w' else '-',
      match has execute, has special with
      | true, true => letter
      | true, false => 'x'
      | false, true => letter.toUpper
      | false, false => '-']

def digits (mode : Nat) : Text :=
  [mode / 512 % 8, mode / 64 % 8, mode / 8 % 8, mode % 8].map Nat.digitChar

end FirmwareBuild.Posix.Mode
