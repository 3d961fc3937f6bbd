import FirmwareBuild.Posix.Numeral
import FirmwareBuild.Posix.Shell.Script

/-! # Arithmetic of the shell

Expressions over whole numbers of 64 bits, which wrap round: the operators of C
with their precedence, on decimal, octal and hexadecimal numbers and on variables.
A variable that is unset or empty counts as zero. An expression that breaks off is
one all the same: it has a value up to the mistake, and there it has none. -/

namespace FirmwareBuild.Posix

inductive BinaryOp where
  | times | quotient | modulo | plus | minus | shiftLeft | shiftRight
  | less | lessEq | greater | greaterEq | equal | unequal
  | bitAnd | bitXor | bitOr
  deriving DecidableEq, Repr

namespace BinaryOp

def strength : BinaryOp → Nat
  | times | quotient | modulo => 10
  | plus | minus => 9
  | shiftLeft | shiftRight => 8
  | less | lessEq | greater | greaterEq => 7
  | equal | unequal => 6
  | bitAnd => 5
  | bitXor => 4
  | bitOr => 3

end BinaryOp

inductive ArithmeticMistake where
  | noOperand
  | noEnd
  | noColon
  | noParenthesis
  | zeroDivisor
  /-- The value of a variable that is no number. -/
  | noNumber (value : Text)
  deriving DecidableEq, Repr

def ArithmeticMistake.description (expression : Text) : ArithmeticMistake → Text
  | noOperand => about "expecting primary"
  | noEnd => about "expecting EOF"
  | noColon => about "expecting ':'"
  | noParenthesis => about "expecting ')'"
  | zeroDivisor => about "division by zero"
  | noNumber value => "Illegal number: ".toList ++ value
where
  about (what : String) : Text :=
    "arithmetic expression: ".toList ++ what.toList ++ ": \"".toList ++ expression ++ ['"']

inductive Formula where
  | number (n : Int)
  | parameter (name : Text)
  | negated (inner : Formula)
  | complement (inner : Formula)
  | isZero (inner : Formula)
  | binary (op : BinaryOp) (left right : Formula)
  | both (left right : Formula)
  | either (left right : Formula)
  | choose (condition first second : Formula)
  | assign (name : Text) (op : Option BinaryOp) (value : Formula)
  /-- An expression with a mistake behind it. -/
  | spoiled (inner : Formula) (mistake : ArithmeticMistake)
  deriving Repr

namespace Formula

/-- What an expression is made of between its blanks. -/
inductive Item where
  | number (n : Int)
  | name (name : Text)
  | binary (op : BinaryOp)
  | assignment (op : Option BinaryOp)
  | both
  | either
  | not
  | complement
  | condition
  | colon
  | opening
  | closing
  | other
  deriving DecidableEq, Repr

/-- The signs with what they stand for. A sign that another one begins with comes after that one. -/
def signs : List (Text × Item) :=
  [("<<=", .assignment (some .shiftLeft)), (">>=", .assignment (some .shiftRight)),
    ("<<", .binary .shiftLeft), (">>", .binary .shiftRight), ("<=", .binary .lessEq),
    (">=", .binary .greaterEq), ("==", .binary .equal), ("!=", .binary .unequal), ("&&", .both),
    ("||", .either), ("*=", .assignment (some .times)), ("/=", .assignment (some .quotient)),
    ("%=", .assignment (some .modulo)), ("+=", .assignment (some .plus)),
    ("-=", .assignment (some .minus)), ("&=", .assignment (some .bitAnd)),
    ("^=", .assignment (some .bitXor)), ("|=", .assignment (some .bitOr)), ("=", .assignment none),
    ("*", .binary .times), ("/", .binary .quotient), ("%", .binary .modulo), ("+", .binary .plus),
    ("-", .binary .minus), ("<", .binary .less), (">", .binary .greater), ("&", .binary .bitAnd),
    ("^", .binary .bitXor), ("|", .binary .bitOr), ("!", .not), ("~", .complement),
    ("?", .condition), (":", .colon), ("(", .opening), (")", .closing)].map
    fun (sign, item) => (sign.toList, item)

def items : Nat → Text → List Item
  | 0, _ => []
  | _, [] => []
  | steps + 1, c :: rest =>
    if c = ' ' ∨ c = '\t' ∨ c = '\n' then items steps rest
    else if c.isDigit then
      let found := Numeral.read true (c :: rest)
      .number found.value :: items steps found.rest
    else if startsName c then
      .name (c :: rest.takeWhile inName) :: items steps (rest.dropWhile inName)
    else match signs.findSome? fun (sign, item) =>
        (Text.dropStart? sign (c :: rest)).map fun rest => (item, rest) with
      | some (item, rest) => item :: items steps rest
      | none => .other :: items steps rest

def mistake (mistake : ArithmeticMistake) : Formula := .spoiled (.number 0) mistake

mutual

/-- An assignment or a choice. -/
def readFormula : Nat → List Item → Formula × List Item
  | 0, _ => (mistake .noOperand, [])
  | fuel + 1, .name name :: .assignment op :: rest =>
    let (value, rest) := readFormula fuel rest
    (.assign name op value, rest)
  | fuel + 1, rest => readChoice fuel rest

/-- A choice between two expressions, or one alone. -/
def readChoice : Nat → List Item → Formula × List Item
  | 0, _ => (mistake .noOperand, [])
  | fuel + 1, rest =>
    match readEither fuel rest with
    | (condition, .condition :: rest) =>
      match readFormula fuel rest with
      | (first, .colon :: rest) =>
        let (second, rest) := readChoice fuel rest
        (.choose condition first second, rest)
      | (first, _) => (.choose condition (.spoiled first .noColon) (.number 0), [])
    | read => read

/-- Expressions of which one has to hold. -/
def readEither : Nat → List Item → Formula × List Item
  | 0, _ => (mistake .noOperand, [])
  | fuel + 1, rest =>
    match readBoth fuel rest with
    | (left, .either :: rest) =>
      let (right, rest) := readEither fuel rest
      (.either left right, rest)
    | read => read

/-- Expressions that all have to hold. -/
def readBoth : Nat → List Item → Formula × List Item
  | 0, _ => (mistake .noOperand, [])
  | fuel + 1, rest =>
    let (operand, rest) := readOperand fuel rest
    match readBinary fuel 1 operand rest with
    | (left, .both :: rest) =>
      let (right, rest) := readBoth fuel rest
      (.both left right, rest)
    | read => read

/-- What is left of an expression that begins with `left`, as far as its operators bind at least
so strongly. -/
def readBinary : Nat → (strength : Nat) → Formula → List Item → Formula × List Item
  | 0, _, _, _ => (mistake .noOperand, [])
  | fuel + 1, strength, left, .binary op :: rest =>
    if op.strength < strength then (left, .binary op :: rest)
    else
      let (operand, rest) := readOperand fuel rest
      let (right, rest) := readBinary fuel (op.strength + 1) operand rest
      readBinary fuel strength (.binary op left right) rest
  | _, _, left, rest => (left, rest)

def readOperand : Nat → List Item → Formula × List Item
  | 0, _ => (mistake .noOperand, [])
  | fuel + 1, item :: rest =>
    match item with
    | .number n => (.number n, rest)
    | .name name => (.parameter name, rest)
    | .binary .plus => readOperand fuel rest
    | .binary .minus => let (inner, rest) := readOperand fuel rest; (.negated inner, rest)
    | .complement => let (inner, rest) := readOperand fuel rest; (.complement inner, rest)
    | .not => let (inner, rest) := readOperand fuel rest; (.isZero inner, rest)
    | .opening =>
      match readFormula fuel rest with
      | (inner, .closing :: rest) => (inner, rest)
      | (inner, _) => (.spoiled inner .noParenthesis, [])
    | _ => (mistake .noOperand, [])
  | _, [] => (mistake .noOperand, [])

end

def ofText (text : Text) : Formula :=
  let all := items text.length text
  match readFormula (8 * all.length + 8) all with
  | (formula, []) => formula
  | (formula, _ :: _) => .spoiled formula .noEnd

def ofBool (b : Bool) : Int := if b then 1 else 0

def bits (n : Int) : BitVec 64 := .ofInt 64 n

/-- What an operator makes of two numbers. Nothing can be divided by zero. -/
def combine (op : BinaryOp) (a b : Int) : Except ArithmeticMistake Int :=
  match op with
  | .times => .ok (Numeral.wrap (a * b))
  | .quotient => if b = 0 then .error .zeroDivisor else .ok (Numeral.wrap (Int.tdiv a b))
  | .modulo => if b = 0 then .error .zeroDivisor else .ok (Int.tmod a b)
  | .plus => .ok (Numeral.wrap (a + b))
  | .minus => .ok (Numeral.wrap (a - b))
  | .shiftLeft => .ok (bits a <<< ((bits b).toNat % 64)).toInt
  | .shiftRight => .ok ((bits a).sshiftRight ((bits b).toNat % 64)).toInt
  | .less => .ok (ofBool (a < b))
  | .lessEq => .ok (ofBool (a ≤ b))
  | .greater => .ok (ofBool (a > b))
  | .greaterEq => .ok (ofBool (a ≥ b))
  | .equal => .ok (ofBool (a = b))
  | .unequal => .ok (ofBool (a ≠ b))
  | .bitAnd => .ok (bits a &&& bits b).toInt
  | .bitXor => .ok (bits a ^^^ bits b).toInt
  | .bitOr => .ok (bits a ||| bits b).toInt

/-- The variables that an expression has set, with their values, and what comes of it. -/
abbrev Value := StateT (List (Text × Int)) (Except ArithmeticMistake)

def valueOf (lookup : Text → Text) (name : Text) : Value Int := do
  if let some n := (← get).lookup name then return n
  match Numeral.ofValue? (lookup name) with
  | some n => return n
  | none => throw (.noNumber (lookup name))

/-- The value of an expression over variables. A part that is idle, because the value hangs on
another one, sets nothing and divides nothing, but its mistakes count. -/
def eval (lookup : Text → Text) (idle : Bool) : Formula → Value Int
  | number n => return n
  | parameter name => if idle then return 0 else valueOf lookup name
  | negated inner => return Numeral.wrap (-(← eval lookup idle inner))
  | complement inner => return Numeral.wrap (-(← eval lookup idle inner) - 1)
  | isZero inner => return ofBool ((← eval lookup idle inner) == 0)
  | binary op left right => do
    let a ← eval lookup idle left
    let b ← eval lookup idle right
    if idle then return b else combine op a b
  | both left right => do
    let a ← eval lookup idle left
    let b ← eval lookup (idle || a == 0) right
    return ofBool (a != 0 && b != 0)
  | either left right => do
    let a ← eval lookup idle left
    let b ← eval lookup (idle || a != 0) right
    return ofBool (a != 0 || b != 0)
  | choose condition first second => do
    let a ← eval lookup idle condition
    let b ← eval lookup (idle || a == 0) first
    let c ← eval lookup (idle || a != 0) second
    return if a == 0 then c else b
  | assign name op value => do
    let right ← eval lookup idle value
    if idle then return right
    let result ← match op with
      | none => pure right
      | some op => combine op (← valueOf lookup name) right
    modify fun set => (name, result) :: set
    return result
  | spoiled inner mistake => do
    let _ ← eval lookup idle inner
    throw mistake

end Formula

end FirmwareBuild.Posix
