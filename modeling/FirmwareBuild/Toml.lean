import FirmwareBuild.Text

/-! # TOML values

The values of a TOML 1.0 document, and the tables they stand in. A table knows
how it came about, because that decides what may still be added to it: a table
with a header of its own is complete when the next header comes, one that only
stands in the header of another can still get a header, one that dotted keys make
can only be added to by dotted keys, and an inline table is complete at once. -/

namespace FirmwareBuild

namespace Toml

inductive Origin where
  /-- By its own header, or as the document itself. -/
  | header
  /-- By the header of a table inside it. -/
  | implied
  | dotted
  | inline
  deriving DecidableEq, Repr

end Toml

/-- A TOML value. Numbers with a fraction or an exponent, and dates and times, keep their
spelling. -/
inductive Toml where
  | string (text : Text)
  | integer (value : Int)
  | float (spelling : Text)
  | boolean (value : Bool)
  | datetime (spelling : Text)
  | array (items : List Toml)
  | table (origin : Toml.Origin) (entries : List (Text × Toml))
  /-- The tables that repeated headers with two brackets list. -/
  | tables (elements : List (List (Text × Toml)))
  deriving Inhabited

namespace Toml

/-- The values of a table with their keys, in the order of the document. -/
abbrev Entries := List (Text × Toml)

def replaceEntry (key : Text) (value : Toml) (entries : Entries) : Entries :=
  entries.map fun entry => if entry.1 = key then (key, value) else entry

/-- Adds a value under a key. The keys before the last lead through tables that dotted keys make,
and no key is given a second value. -/
def addPair? (value : Toml) : List Text → Entries → Option Entries
  | [], _ => none
  | [key], entries =>
    if (entries.lookup key).isSome then none else some (entries ++ [(key, value)])
  | key :: next :: path, entries =>
    match entries.lookup key with
    | none =>
      (addPair? value (next :: path) []).map fun inner => entries ++ [(key, .table .dotted inner)]
    | some (.table .dotted inner) =>
      (addPair? value (next :: path) inner).map fun inner =>
        replaceEntry key (.table .dotted inner) entries
    | some (.table .implied inner) =>
      if path.isEmpty then none
      else (addPair? value (next :: path) inner).map fun inner =>
        replaceEntry key (.table .implied inner) entries
    | some (.tables elements) =>
      match path, elements.getLast? with
      | _ :: _, some inner =>
        (addPair? value (next :: path) inner).map fun inner =>
          replaceEntry key (.tables (elements.dropLast ++ [inner])) entries
      | _, _ => none
    | some _ => none

def addPairs? (pairs : List (List Text × Toml)) (entries : Entries) : Option Entries :=
  pairs.foldlM (fun entries (key, value) => addPair? value key entries) entries

structure Section where
  isElement : Bool
  path : List Text
  pairs : List (List Text × Toml)
  deriving Inhabited

/-- Adds the table of a section at the end of a path. A table has at most one header. -/
def addSection? (isElement : Bool) (pairs : List (List Text × Toml)) :
    List Text → Entries → Option Entries
  | [], _ => none
  | [key], entries =>
    match isElement, entries.lookup key with
    | true, none => (addPairs? pairs []).map fun inner => entries ++ [(key, .tables [inner])]
    | true, some (.tables elements) =>
      (addPairs? pairs []).map fun inner => replaceEntry key (.tables (elements ++ [inner])) entries
    | false, none => (addPairs? pairs []).map fun inner => entries ++ [(key, .table .header inner)]
    | false, some (.table .implied inner) =>
      (addPairs? pairs inner).map fun inner => replaceEntry key (.table .header inner) entries
    | _, _ => none
  | key :: next :: path, entries =>
    match entries.lookup key with
    | none =>
      (addSection? isElement pairs (next :: path) []).map fun inner =>
        entries ++ [(key, .table .implied inner)]
    | some (.table .inline _) => none
    | some (.table origin inner) =>
      (addSection? isElement pairs (next :: path) inner).map fun inner =>
        replaceEntry key (.table origin inner) entries
    | some (.tables elements) =>
      match elements.getLast? with
      | some inner =>
        (addSection? isElement pairs (next :: path) inner).map fun inner =>
          replaceEntry key (.tables (elements.dropLast ++ [inner])) entries
      | none => none
    | some _ => none

def assemble? (pairs : List (List Text × Toml)) (sections : List Section) : Option Entries := do
  let entries ← addPairs? pairs []
  sections.foldlM (fun entries s => addSection? s.isElement s.pairs s.path entries) entries

end Toml

end FirmwareBuild
