import FirmwareBuild.Text

/-! # Settings of a shell

The options that `set` switches and that a shell can be started with, by name and
by letter. -/

namespace FirmwareBuild.Posix

inductive Setting where
  | exitOnError
  | noPatterns
  | ignoreEnd
  | interactive
  | monitor
  | readOnlyScript
  | fromInput
  | trace
  | verbose
  | viEditing
  | emacsEditing
  | keepFiles
  | exportAll
  | notify
  | noUnset
  | privileged
  | noLog
  | debug
  deriving DecidableEq, Repr

namespace Setting

/-- All settings in the order of listings, with their names and letters. -/
def table : List (Setting × String × Option Char) :=
  [(exitOnError, "errexit", some 'e'), (noPatterns, "noglob", some 'f'),
    (ignoreEnd, "ignoreeof", some 'I'), (interactive, "interactive", some 'i'),
    (monitor, "monitor", some 'm'), (readOnlyScript, "noexec", some 'n'),
    (fromInput, "stdin", some 's'), (trace, "xtrace", some 'x'), (verbose, "verbose", some 'v'),
    (viEditing, "vi", some 'V'), (emacsEditing, "emacs", some 'E'),
    (keepFiles, "noclobber", some 'C'), (exportAll, "allexport", some 'a'),
    (notify, "notify", some 'b'), (noUnset, "nounset", some 'u'),
    (privileged, "privileged", some 'p'), (noLog, "nolog", none), (debug, "debug", none)]

def ofLetter? (letter : Char) : Option Setting :=
  (table.find? fun (_, _, l) => l = some letter).map Prod.fst

def ofName? (name : Text) : Option Setting :=
  (table.find? fun (_, n, _) => n.toList = name).map Prod.fst

def letters (on : List Setting) : Text :=
  table.reverse.filterMap fun (setting, _, letter) => if on.contains setting then letter else none

/-- The settings with one switched. The two ways of editing exclude each other. -/
def switch (setting : Setting) (value : Bool) (on : List Setting) : List Setting :=
  let others := on.filter (· ≠ setting)
  if !value then others
  else setting :: match setting with
    | viEditing => others.filter (· ≠ emacsEditing)
    | emacsEditing => others.filter (· ≠ viEditing)
    | _ => others

/-- The table of all settings, or the commands that make them what they are. -/
def listing (asCommands : Bool) (on : List Setting) : Text :=
  let line (setting : Setting) (name : Text) : Text :=
    let isOn := on.contains setting
    if asCommands then (if isOn then "set -o " else "set +o ").toList ++ name ++ ['\n']
    else name ++ List.replicate (16 - name.length) ' ' ++ (if isOn then "on\n" else "off\n").toList
  (if asCommands then [] else "Current option settings\n".toList) ++
    table.flatMap fun (setting, name, _) => line setting name.toList

end Setting

end FirmwareBuild.Posix
