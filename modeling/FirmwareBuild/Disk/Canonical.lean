import FirmwareBuild.Disk

/-! # Canonical paths

The one absolute path without links, dots and repeated slashes that leads where
another path leads. How much of the path has to be there depends on who asks. -/

namespace FirmwareBuild.Disk

/-- What has to be there. -/
inductive Presence where
  | everything
  | allButLast
  | nothing
  deriving DecidableEq, Repr

/-- The location that names lead to from another one, in at most so many steps and through at most
so many links. The last name may have to be a directory. -/
def canonicalFrom (presence : Presence) (disk : Disk) :
    (steps links : Nat) → Location → List Bytes → Except IoError Location
  | 0, _, _, _ => .error .tooManyLinks
  | _, _, location, [] => .ok location
  | steps + 1, links, location, name :: rest =>
    if name = Pathname.here then canonicalFrom presence disk steps links location rest
    else if name = Pathname.up then canonicalFrom presence disk steps links location.dropLast rest
    else
      let inner := location ++ [name]
      let node? := (disk.numberAt? root inner).bind fun number => disk.nodes[number]?
      match node? with
      | none =>
        let isLast := rest.all (· == Pathname.here)
        if name.length > maxName && presence != .nothing then .error .nameTooLong
        else if presence = .nothing || (presence = .allButLast && isLast) then
          canonicalFrom presence disk steps links inner rest
        else .error .notFound
      | some (.link target) =>
        match links with
        | 0 => .error .tooManyLinks
        | links + 1 =>
          canonicalFrom presence disk steps links
            (if Pathname.isAbsolute target then [] else location)
            (strictNames target ++ rest)
      | some node =>
        if rest.isEmpty || node.isDirectory || presence = .nothing then
          canonicalFrom presence disk steps links inner rest
        else .error .notADirectory

def startLocation? (disk : Disk) (path : Bytes) : Option Location :=
  if path.isEmpty then none
  else if Pathname.isAbsolute path then some []
  else disk.cwdLocation?

def canonical (presence : Presence) (disk : Disk) (path : Bytes) : Except IoError Location :=
  let steps := (path.length + maxPath) * (maxLinks + 1)
  match disk.startLocation? path with
  | none => .error .notFound
  | some start => canonicalFrom presence disk steps maxLinks start (strictNames path)

/-- Whether a name has to be that of a directory because of the names behind it: single dots and
nothing else, or a double dot. -/
def needsDirectory (rest : List Bytes) : Bool :=
  match rest.dropWhile (· == Pathname.here) with
  | [] => !rest.isEmpty
  | name :: _ => name = Pathname.up

/-- The location that names tell of from another one when links are left as they are. A name between
others is not looked at. -/
def writtenFrom (presence : Presence) (disk : Disk) : Location → List Bytes →
    Except IoError Location
  | location, [] => .ok location
  | location, name :: rest =>
    if name = Pathname.here then writtenFrom presence disk location rest
    else if name = Pathname.up then writtenFrom presence disk location.dropLast rest
    else
      let inner := location ++ [name]
      let found := disk.lookup (pathOf inner)
      let go := writtenFrom presence disk inner rest
      if presence = .nothing then go
      else match found with
        | .ok (_, node) =>
          if needsDirectory rest && !node.isDirectory then .error .notADirectory else go
        | .error cause =>
          let isLast := rest.isEmpty || rest = [Pathname.here]
          if presence = .allButLast && cause = .notFound && isLast then go
          else if rest.isEmpty || needsDirectory rest then .error cause
          else go

def written (presence : Presence) (disk : Disk) (path : Bytes) : Except IoError Location :=
  match disk.startLocation? path with
  | none => .error .notFound
  | some start => writtenFrom presence disk start (strictNames path)

def relativeTo (base location : Location) : Bytes :=
  let shared := ((List.zip base location).takeWhile fun pair => pair.1 = pair.2).length
  let names := List.replicate (base.length - shared) Pathname.up ++ location.drop shared
  if names.isEmpty then Pathname.here else Text.join [Pathname.slash] names

end FirmwareBuild.Disk
