import FirmwareBuild.Text

/-! # Assignments for a shell

One line of a script that gives a variable a value. For a POSIX shell the value
stands in single quotes, inside which only the quote itself needs care. For `cmd`
the assignment stands in double quotes and a percent sign is doubled, as batch
files want it. -/

namespace FirmwareBuild

inductive ShellKind where
  | bash
  | sh
  | cmd
  deriving DecidableEq, Repr

namespace ShellKind

/-- The word that starts a comment. -/
def comment : ShellKind → Text
  | bash | sh => "#".toList
  | cmd => "rem".toList

/-- A value in single quotes. A quote inside it ends the quoting, stands behind a backslash, and
starts the quoting again. -/
def quote (value : Text) : Text := '\'' :: Text.replace '\'' "'\\''".toList value ++ ['\'']

def assignment (shell : ShellKind) (name value : Text) : Text :=
  match shell with
  | bash | sh => "export ".toList ++ name ++ '=' :: quote value
  | cmd => "set \"".toList ++ name ++ '=' :: Text.replace '%' "%%".toList value ++ ['"']

end ShellKind

end FirmwareBuild
