import FirmwareBuild.Posix.Numeral

/-! # Classes of characters

The classes that patterns and sets of characters call by name. Only ASCII characters
belong to one. -/

namespace FirmwareBuild.Posix.CharacterClass

def all : List (String × (Char → Bool)) :=
  [("upper", Char.isUpper), ("lower", Char.isLower), ("digit", Char.isDigit),
    ("alpha", Char.isAlpha), ("alnum", Char.isAlphanum), ("space", Numeral.isSpace),
    ("blank", fun c => c == ' ' || c == '\t'),
    ("punct", fun c => '!' ≤ c && c ≤ '~' && !c.isAlphanum),
    ("cntrl", fun c => c < ' ' || c == '\x7f'), ("print", fun c => ' ' ≤ c && c ≤ '~'),
    ("graph", fun c => '!' ≤ c && c ≤ '~'),
    ("xdigit", fun c => (Numeral.digit? 16 c).isSome)]

/-- The class that a text names between colons in front of a closing bracket, and what follows
it. -/
def read? (text : Text) : Option (String × Text) :=
  all.findSome? fun (name, _) =>
    (Text.dropStart? (':' :: name.toList ++ [':', ']']) text).map fun rest => (name, rest)

def holds (name : String) (c : Char) : Bool := (all.lookup name).any fun isMember => isMember c

end FirmwareBuild.Posix.CharacterClass
