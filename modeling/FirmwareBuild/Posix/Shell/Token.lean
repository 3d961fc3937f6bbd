import FirmwareBuild.Posix.Shell.Script

/-! # Tokens of a shell script

What a script is made of between its blanks, and what can be wrong with it. A
word is a token that is still to be expanded; a few words are reserved for the
grammar where a command may begin. -/

namespace FirmwareBuild.Posix

inductive Sign where
  | semicolon
  | ampersand
  | both
  | either
  | bar
  | opening
  | closing
  | endOfArm
  deriving DecidableEq, Repr

def Sign.text : Sign → String
  | semicolon => ";"
  | ampersand => "&"
  | both => "&&"
  | either => "||"
  | bar => "|"
  | opening => "("
  | closing => ")"
  | endOfArm => ";;"

inductive Redirector where
  | file (mode : OpenMode)
  | copy
  | document (stripsTabs : Bool)
  deriving DecidableEq, Repr

inductive Token where
  | finish
  | newline
  | sign (sign : Sign)
  | redirect (stream : Nat) (redirector : Redirector)
  | word (word : Word)
  | reserved (word : String)

def Token.description : Token → Text
  | finish => "end of file".toList
  | newline => "newline".toList
  | sign mark => '"' :: mark.text.toList ++ ['"']
  | redirect _ _ => "redirection".toList
  | word _ => "word".toList
  | reserved name => '"' :: name.toList ++ ['"']

def reservedWords : List String :=
  ["!", "case", "do", "done", "elif", "else", "esac", "fi", "for", "if", "in", "then", "until",
    "while", "\x7b", "\x7d"]

/-- The reserved words that end the commands before them. -/
def closingWords : List String :=
  ["do", "done", "elif", "else", "esac", "fi", "then", "\x7d"]

def Token.closes : Token → Bool
  | finish => true
  | sign mark => mark = .closing ∨ mark = .endOfArm
  | reserved name => closingWords.contains name
  | _ => false

/-- The commands that no function can take the name of. -/
def specialCommands : List Text :=
  [".", ":", "break", "continue", "eval", "exec", "exit", "export", "local", "readonly", "return",
    "set", "shift", "times", "trap", "unset"].map String.toList

inductive ScriptMistake where
  /-- A token where no such token may stand, and perhaps the one that has to. -/
  | unexpected (found : Text) (expected : Option Text)
  | openQuotes
  | openBraces
  | openArithmetic
  | openBackquotes
  /-- Something else than a name for the variable of a loop. -/
  | loopVariable
  | functionName
  deriving DecidableEq, Repr

def ScriptMistake.description : ScriptMistake → Text
  | unexpected found expected =>
    found ++ " unexpected".toList ++ match expected with
      | some expected => " (expecting ".toList ++ expected ++ [')']
      | none => []
  | openQuotes => "Unterminated quoted string".toList
  | openBraces => "Missing '\x7d'".toList
  | openArithmetic => "Missing '))'".toList
  | openBackquotes => "EOF in backquote substitution".toList
  | loopVariable => "Bad for loop variable".toList
  | functionName => "Bad function name".toList

end FirmwareBuild.Posix
