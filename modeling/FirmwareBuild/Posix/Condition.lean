import FirmwareBuild.Disk
import FirmwareBuild.Posix.Numeral
import FirmwareBuild.Posix.Quoting
import FirmwareBuild.Posix.Shell.Script

/-! # Conditions

What `test` asks of texts, whole numbers and files, and the expressions that the
program of that name reads. It decides by the number of arguments: up to four of
them have a meaning each by their number, and more are conditions that are
negated, put in parentheses and joined. -/

namespace FirmwareBuild.Posix.Condition

def node? (disk : Disk) (path : Text) : Option Node := disk.node? (toOctets path)

/-- What an operator in front of an argument says of it, if there is such an operator. -/
def unary? (disk : Disk) (op : Char) (a : Text) : Option Bool :=
  let there := node? disk a
  let hasRight (bit : Nat) : Bool :=
    (disk.lookup (toOctets a)).toOption.any fun found => disk.modeOf found.1 &&& bit != 0
  match op with
  | 'n' => some (!a.isEmpty)
  | 'z' => some a.isEmpty
  | 'e' | 'r' | 'w' | 'O' | 'G' => some there.isSome
  | 'd' => some (there.any Node.isDirectory)
  | 'f' => some (there.any Node.isFile)
  | 'h' | 'L' =>
    match disk.lookupLink (toOctets a) with
    | .ok (_, .link _) => some true
    | _ => some false
  | 'c' => some <| there.any fun
      | .device _ => true
      | _ => false
  | 's' => some (there.any fun node => node.isDirectory || node.size > 0)
  | 'x' => some (there.any fun node => node.isDirectory || node.isExecutable)
  | 'u' => some (hasRight 0x800)
  | 'g' => some (hasRight 0x400)
  | 'k' => some (hasRight 0x200)
  | 'b' | 'p' | 't' | 'S' => some false
  | _ => none

def comparison? (op : Text) : Option (Int → Int → Bool) :=
  ([("-eq", fun a b => a == b), ("-ne", fun a b => a != b), ("-lt", fun a b => a < b),
    ("-le", fun a b => a ≤ b), ("-gt", fun a b => a > b), ("-ge", fun a b => a ≥ b)] :
    List (String × (Int → Int → Bool))).lookup (String.ofList op)

def sameNode (disk : Disk) (a b : Text) : Bool :=
  match disk.lookup (toOctets a), disk.lookup (toOctets b) with
  | .ok (first, _), .ok (second, _) => first == second
  | _, _ => false

def pathOperators : List Text := ["-nt", "-ot", "-ef"].map String.toList

def timeOf? (disk : Disk) (path : Text) : Option Time :=
  (disk.lookup (toOctets path)).toOption.map fun found => disk.timeOf found.1

/-- What an operator says of two paths. What is missing is older than anything. -/
def comparePaths (disk : Disk) (op a b : Text) : Bool :=
  let isNewer (a b : Text) : Bool :=
    match timeOf? disk a, timeOf? disk b with
    | some first, some second => first > second
    | some _, none => true
    | none, _ => false
  match op with
  | ['-', 'e', 'f'] => sameNode disk a b
  | ['-', 'n', 't'] => isNewer a b
  | _ => isNewer b a

/-! ## The program -/

def isBinary (op : Text) : Bool :=
  (comparison? op).isSome || pathOperators.contains op ||
    ["=", "==", "!="].any fun name => op == name.toList

/-- A value and the arguments behind, or what is wrong. -/
abbrev Judged := Except Text (Bool × List Text)

/-- The number that an argument is. There is no limit to numbers. -/
def number (arg : Text) : Except Text Int :=
  let found := Numeral.readExact false arg
  if found.hasDigits && found.rest.all Numeral.isSpace then .ok found.value
  else .error ("invalid integer ".toList ++ Quoted.escaped arg)

section

variable (disk : Disk) (last : Text)

def beyond {α : Type} : Except Text α :=
  .error ("missing argument after ".toList ++ Quoted.escaped last)

def unary : List Text → Judged
  | op :: rest =>
    match op, rest with
    | ['-', letter], a :: rest =>
      match unary? disk letter a with
      | some value =>
        if letter = 't' then (number a).map fun _ => (value, rest) else .ok (value, rest)
      | none => unknown op
    | ['-', letter], [] => if (unary? disk letter []).isSome then beyond last else unknown op
    | op, _ => unknown op
  | [] => beyond last
where
  unknown (op : Text) : Judged := .error (Quoted.escaped op ++ ": unary operator expected".toList)

/-- A number, or behind `-l` the length of an argument, and what follows. -/
def operand : List Text → Except Text ((Text × Except Text Int) × List Text)
  | ['-', 'l'] :: a :: rest => .ok ((a, .ok a.length), rest)
  | a :: rest => .ok ((a, number a), rest)
  | [] => beyond last

/-- What an operator says of the arguments around it. A length is only looked for if there are
enough arguments. -/
def binary (args : List Text) : Judged := do
  let plain : List Text → Except Text ((Text × Except Text Int) × List Text)
    | a :: rest => .ok ((a, number a), rest)
    | [] => beyond last
  let leftIsLength := args.length ≥ 4 && args.head? == some ['-', 'l'] &&
    (args[2]?).any isBinary && !(args[1]?).any isBinary
  let ((a, x), args) ← if leftIsLength then operand last args else plain args
  let op :: args := args | beyond last
  let ((b, y), args) ← if args.length ≥ 2 then operand last args else plain args
  match comparison? op with
  | some compare => return (compare (← x) (← y), args)
  | none =>
    if pathOperators.contains op then return (comparePaths disk op a b, args)
    return ((a == b) != (op == ['!', '=']), args)

/-- One argument, which must not be empty. -/
def one : List Text → Judged
  | a :: rest => .ok (!a.isEmpty, rest)
  | [] => beyond last

def two : List Text → Judged
  | ['!'] :: rest => (one last rest).map fun (value, rest) => (!value, rest)
  | ['-', c] :: rest => unary disk last (['-', c] :: rest)
  | _ => beyond last

mutual

/-- So many arguments, or a whole expression. -/
def counted : Nat → (count : Nat) → List Text → Judged
  | 0, _, _ => beyond last
  | fuel + 1, count, args => do
    let negated (judged : Judged) : Judged := judged.map fun (value, rest) => (!value, rest)
    match count, args with
    | 1, args => one last args
    | 2, args => two disk last args
    | 3, a :: op :: b :: rest =>
      if isBinary op then binary disk last args
      else if a = ['!'] then negated (two disk last (op :: b :: rest))
      else if a = ['('] ∧ b = [')'] then return (!op.isEmpty, rest)
      else if op = ['-', 'a'] ∨ op = ['-', 'o'] then either fuel args
      else throw (Quoted.escaped op ++ ": binary operator expected".toList)
    | 4, a :: b :: c :: d :: rest =>
      if a = ['!'] then negated (counted fuel 3 (b :: c :: d :: rest))
      else if a = ['('] ∧ d = [')'] then
        let (value, rest) ← two disk last (b :: c :: d :: rest)
        return (value, rest.tail)
      else either fuel args
    | _, args => either fuel args

def either : Nat → List Text → Judged
  | 0, _ => beyond last
  | fuel + 1, args => do
    let (first, rest) ← both fuel args
    match rest with
    | ['-', 'o'] :: rest =>
      let (second, rest) ← either fuel rest
      return (first || second, rest)
    | rest => return (first, rest)

def both : Nat → List Text → Judged
  | 0, _ => beyond last
  | fuel + 1, args => do
    let (first, rest) ← single fuel args
    match rest with
    | ['-', 'a'] :: rest =>
      let (second, rest) ← both fuel rest
      return (first && second, rest)
    | rest => return (first, rest)

def single : Nat → List Text → Judged
  | 0, _ => beyond last
  | fuel + 1, args => do
    match args with
    | [] => beyond last
    | ['!'] :: rest =>
      let (value, rest) ← single fuel rest
      return (!value, rest)
    | ['('] :: rest =>
      if rest.isEmpty then beyond last
      let inside := 1 + (rest.tail.takeWhile (· ≠ [')'])).length
      match ← counted fuel (if inside > 4 then rest.length else inside) rest with
      | (value, [')'] :: rest) => return (value, rest)
      | (_, []) => throw "')' expected".toList
      | (_, arg :: _) => throw ("')' expected, found ".toList ++ Quoted.escaped arg)
    | first :: rest =>
      if (args.length ≥ 4 && first == ['-', 'l'] && (args[2]?).any isBinary) ||
          (args.length ≥ 3 && (args[1]?).any isBinary) then binary disk last args
      else match first with
        | ['-', _] => unary disk last args
        | first => return (!first.isEmpty, rest)

end

end

/-- Whether a condition holds, or what is wrong with it. -/
def decide (disk : Disk) (args : List Text) : Except Text Bool :=
  if args.isEmpty then .ok false
  else do
    let last := args.getLastD []
    match ← counted disk last (4 * args.length + 4) args.length args with
    | (value, []) => return value
    | (_, arg :: _) => throw ("extra argument ".toList ++ Quoted.escaped arg)

end FirmwareBuild.Posix.Condition
