import FirmwareBuild.Posix.Shell.Script

/-! # Home directories in words

A tilde in front of a word, and in an assignment also one behind a colon, stands
for the home directory of the user, or of the user whose name follows. -/

namespace FirmwareBuild.Posix

/-- The home directory of a user by the name. The empty name is the present user. -/
def homeOf? (home : Option Text) (name : Text) : Option Text :=
  match name with
  | [] => home
  | name => if name = "root".toList then some "/root".toList else none

/-- The home directory that a text with a tilde in front begins with, and what follows. The name
has to end in the text, unless the text is the last part of its word. -/
def leadingHome? (home : Option Text) (assigned isLast : Bool) : Text → Option (Text × Text)
  | '~' :: text =>
    let name := text.takeWhile fun c => c ≠ '/' && !(assigned && c = ':')
    let rest := text.drop name.length
    if rest.isEmpty && !isLast then none else (homeOf? home name).map fun value => (value, rest)
  | _ => none

def openTildes (home : Option Text) (assigned isLast : Bool) : Nat → (starts : Bool) → Text → Word
  | 0, _, text => [.plain text]
  | steps + 1, starts, text =>
    match if starts then leadingHome? home assigned isLast text else none with
    | some (value, rest) =>
      (if value.isEmpty then [] else [.quoted value]) ++
        openTildes home assigned isLast steps false rest
    | none =>
      match if assigned then Text.splitFirst? ':' text else none with
      | some (before, after) =>
        .plain (before ++ [':']) :: openTildes home assigned isLast steps true after
      | none => [.plain text]

def Word.withHomes (home : Option Text) (assigned : Bool) : (starts : Bool) → Word → Word
  | _, [] => []
  | starts, .plain text :: rest =>
    openTildes home assigned rest.isEmpty (text.length + 1) starts text ++
      withHomes home assigned false rest
  | _, part :: rest => part :: withHomes home assigned false rest

end FirmwareBuild.Posix
