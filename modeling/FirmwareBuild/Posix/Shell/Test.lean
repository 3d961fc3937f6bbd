import FirmwareBuild.Posix.Condition

/-! # Conditions of the shell

The command `test` that the shell has itself. It decides from the number of
arguments and from the next two of them whether an argument is an operator, so a
word that looks like one can still be compared. The functions below look at the
arguments from the present one on. -/

namespace FirmwareBuild.Posix.ShellTest

inductive Item where
  | finish
  | operand
  | unary
  | binary
  | negation
  | both
  | either
  | opening
  | closing
  deriving DecidableEq, Repr

inductive Mistake where
  | unexpected (arg : Text)
  | noArgument (op : Text)
  | noClosing
  | noNumber (arg : Text)
  deriving DecidableEq, Repr

def Mistake.description : Mistake → Text
  | unexpected arg => about arg "unexpected operator"
  | noArgument op => about op "argument expected"
  | noClosing => "closing paren expected".toList
  | noNumber arg => "Illegal number: ".toList ++ arg
where
  /-- What is wrong with an argument. The empty one is not shown. -/
  about (arg : Text) (what : String) : Text :=
    if arg.isEmpty then what.toList else arg ++ ": ".toList ++ what.toList

def isBinary (op : Text) : Bool :=
  (Condition.comparison? op).isSome || Condition.pathOperators.contains op ||
    ["=", "!=", "<", ">"].any fun name => op == name.toList

def isUnary (op : Text) : Bool :=
  match op with
  | ['-', letter] => "rwxefdcbpugkstznhOGLS".toList.contains letter
  | _ => false

/-- What an operator says of two arguments, or the one of them that should be a number and is
none. -/
def compare (disk : Disk) (op a b : Text) : Except Text Bool :=
  match Condition.comparison? op, op with
  | some compare, _ => do
    let number (text : Text) : Except Text Int := (Numeral.ofText? text).elim (.error text) .ok
    return compare (← number a) (← number b)
  | none, ['='] => .ok (a == b)
  | none, ['!', '='] => .ok (a != b)
  | none, ['<'] => .ok (decide (a < b))
  | none, ['>'] => .ok (decide (b < a))
  | none, op =>
    .ok <| match op, Condition.timeOf? disk a, Condition.timeOf? disk b with
      | ['-', 'e', 'f'], _, _ => Condition.sameNode disk a b
      | ['-', 'n', 't'], some first, some second => first > second
      | ['-', 'o', 't'], some first, some second => first < second
      | _, _, _ => false

def operator? (arg : Text) : Option Item :=
  if isUnary arg then some .unary
  else if isBinary arg then some .binary
  else match arg with
    | ['!'] => some .negation
    | ['-', 'a'] => some .both
    | ['-', 'o'] => some .either
    | ['('] => some .opening
    | [')'] => some .closing
    | _ => none

def item : List Text → Item
  | [] => .finish
  | arg :: rest =>
    match operator? arg, rest with
    | none, _ => .operand
    | some .unary, [] => .operand
    | some .unary, [_] => .unary
    | some .unary, next :: _ => if operator? next = some .binary then .operand else .unary
    | some .opening, [] => .operand
    | some item, _ => item

/-- A value, and the arguments from the last one on that it comes from. -/
abbrev Judged := Except Mistake (Bool × List Text)

mutual

def any (disk : Disk) : Nat → Item → List Text → Judged
  | 0, _, args => .ok (false, args)
  | fuel + 1, first, args => do
    let (value, args) ← all disk fuel first args
    if item args.tail = .either then
      let rest := args.drop 2
      let (more, args) ← any disk fuel (item rest) rest
      return (value || more, args)
    else return (value, args)

def all (disk : Disk) : Nat → Item → List Text → Judged
  | 0, _, args => .ok (false, args)
  | fuel + 1, first, args => do
    let (value, args) ← single disk fuel first args
    if item args.tail = .both then
      let rest := args.drop 2
      let (more, args) ← all disk fuel (item rest) rest
      return (value && more, args)
    else return (value, args)

def single (disk : Disk) : Nat → Item → List Text → Judged
  | 0, _, args => .ok (false, args)
  | fuel + 1, first, args => do
    match first, args with
    | .finish, args => return (false, args)
    | .negation, args =>
      let next := item args.tail
      let (value, args) ← single disk fuel next (if next = .finish then args else args.tail)
      return (!value, args)
    | .opening, args =>
      let inside := args.tail
      if item inside = .closing then return (false, inside)
      let (value, args) ← any disk fuel (item inside) inside
      if item args.tail ≠ .closing then throw .noClosing
      return (value, args.tail)
    | .unary, op :: arg :: rest =>
      if op = ['-', 't'] ∧ (Numeral.ofText? arg).isNone then throw (.noNumber arg)
      return (op[1]?.any fun letter => Condition.unary? disk letter arg == some true, arg :: rest)
    | .unary, op :: [] => throw (.noArgument op)
    | _, a :: op :: rest =>
      if item (op :: rest) = .binary then
        match rest with
        | [] => throw (.noArgument op)
        | b :: rest =>
          match compare disk op a b with
          | .ok value => return (value, b :: rest)
          | .error arg => throw (.noNumber arg)
      else return (!a.isEmpty, args)
    | _, [a] => return (!a.isEmpty, args)
    | _, [] => return (false, args)

end

def whole (disk : Disk) (negated : Bool) (first : Item) (args : List Text) :
    Except Mistake Bool := do
  match ← any disk (4 * args.length + 4) first args with
  | (_, arg :: _ :: _) => throw (.unexpected arg)
  | (value, _) => return value != negated

/-- Whether a condition holds. With three arguments one in the middle compares the others; with
three or four, parentheses around are taken off first, and negations in front, which count as one
together. -/
def holds (disk : Disk) (negated : Bool) : List Text → Except Mistake Bool
  | [] => .ok false
  | [a, op, b] =>
    if isBinary op then whole disk negated .operand [a, op, b]
    else if a = ['('] ∧ b = [')'] then whole disk negated (item [op]) [op]
    else if a = ['!'] then holds disk true [op, b]
    else whole disk negated (item [a, op, b]) [a, op, b]
  | [a, b, c, d] =>
    if a = ['('] ∧ d = [')'] then whole disk negated (item [b, c]) [b, c]
    else if a = ['!'] then holds disk true [b, c, d]
    else whole disk negated (item [a, b, c, d]) [a, b, c, d]
  | args => whole disk negated (item args) args

end FirmwareBuild.Posix.ShellTest
