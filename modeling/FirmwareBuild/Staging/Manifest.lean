import FirmwareBuild.Json.Reader

/-! # Copy manifests

A manifest lists files to copy, each with where it comes from and where it goes.
It is written as a JSON array. An entry is an object with the two fields, in any
order and each once, and any fields of other names; or it is an array of the two
texts. -/

namespace FirmwareBuild

/-- A file to copy: where it is below the one tree, and where it goes below the other. -/
structure CopyEntry where
  source : Text
  destination : Text
  deriving DecidableEq, Repr

abbrev Manifest := List CopyEntry

namespace Manifest

/-- The text of the one member with a given name. -/
def field? (name : Text) (members : List (Option Text × Json)) : Option Text :=
  match members.filter (fun member => member.1 = some name) with
  | [(_, .string text)] => text
  | _ => none

def entryOf? : Json → Option CopyEntry
  | .array [.string (some source), .string (some destination)] => some { source, destination }
  | .object members =>
    if members.all (·.1.isSome) then do
      let source ← field? "source".toList members
      let destination ← field? "destination".toList members
      some { source, destination }
    else none
  | _ => none

def read? (text : Text) : Option Manifest := do
  let .array items ← Json.read? text | none
  items.mapM entryOf?

end Manifest

end FirmwareBuild
