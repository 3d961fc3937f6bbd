import FirmwareBuild.Disk

/-! # Giving and taking names

What can be done to the names of nodes: giving one more name, making a symbolic
link, taking away an empty directory, and putting another name in the place of the
one there is. A node whose last name is taken stays, for those that still work with
it. -/

namespace FirmwareBuild.Disk

def nameCount (disk : Disk) (number : Nat) : Nat :=
  Text.total (disk.nodes.toList.map fun node =>
    node.entries.countP fun entry => entry.2 = number)

def areSameName (disk : Disk) (a b : Bytes) : Bool :=
  match disk.locate false a, disk.locate false b with
  | .ok x, .ok y => x.directory == y.directory && x.name == y.name
  | _, _ => false

/-- Gives a node that is no directory one more name. -/
def giveName (number : Nat) (path : Bytes) : Change Unit := fun disk =>
  match disk.locate false path with
  | .error cause => .error cause disk
  | .ok place =>
    if (disk.nodes[number]?).any Node.isDirectory then .error .notPermitted disk
    else if place.node.isSome then .error .alreadyExists disk
    else if Pathname.endsInSlash path then .error .notFound disk
    else .ok () (disk.setEntry place.directory place.name number)

def makeLink (target path : Bytes) : Change Unit := fun disk =>
  match disk.locate false path with
  | .error cause => .error cause disk
  | .ok place =>
    if target.isEmpty then .error .notFound disk
    else if place.node.isSome then .error .alreadyExists disk
    else if Pathname.endsInSlash path then .error .notFound disk
    else .ok () (disk.addNode place (.link target)).2

def removeDirectory (path : Bytes) : Change Unit := fun disk =>
  match disk.locate false path with
  | .error cause => .error cause disk
  | .ok place =>
    match place.node.bind fun number => (disk.nodes[number]?).map (number, ·) with
    | none => .error .notFound disk
    | some (number, .directory parent entries) =>
      let last := (Pathname.names path).getLastD []
      if number = root then .error .busy disk
      else if last = Pathname.here then .error .invalidArgument disk
      else if last = Pathname.up ∨ !entries.isEmpty then .error .notEmpty disk
      else .ok () ((disk.dropEntry place.directory place.name).setNode number (.removed parent))
    | some _ => .error .notADirectory disk

/-- Whether a directory is another one or lies in it, seen by going up at most so many times. -/
def isInside (disk : Disk) (outer : Nat) : Nat → Nat → Bool
  | 0, _ => false
  | steps + 1, number =>
    number == outer ||
      match disk.nodes[number]? with
      | some (.directory parent _) => number != root && isInside disk outer steps parent
      | _ => false

/-- Puts a name in the place of the one that a node has. What had the new name before loses it; a
directory can only take the place of an empty one. -/
def rename (old new : Bytes) : Change Unit := fun disk =>
  match disk.locate false old with
  | .error cause => .error cause disk
  | .ok source =>
    match disk.locate false new with
    | .error cause => .error cause disk
    | .ok target =>
      match source.node.bind fun number => (disk.nodes[number]?).map (number, ·) with
      | none => .error .notFound disk
      | some (number, node) =>
        let inWay := target.node.bind fun other => (disk.nodes[other]?).map (other, ·)
        let slash := Pathname.endsInSlash old || Pathname.endsInSlash new
        let moved : Disk :=
          let taken := (disk.dropEntry source.directory source.name).setEntry
            target.directory target.name number
          match node with
          | .directory _ entries => taken.setNode number (.directory target.directory entries)
          | _ => taken
        if source.name = Pathname.here ∨ target.name = Pathname.here then .error .busy disk
        else if node.isDirectory &&
            disk.isInside number disk.nodes.size target.directory then
          .error .invalidArgument disk
        else if !node.isDirectory && slash then .error .notADirectory disk
        else match inWay with
          | none => .ok () moved
          | some (other, there) =>
            if other = number then .ok () disk
            else if node.isDirectory then
              match there with
              | .directory parent [] => .ok () (moved.setNode other (.removed parent))
              | .directory _ _ => .error .notEmpty disk
              | _ => .error .notADirectory disk
            else if there.isDirectory then .error .isADirectory disk
            else .ok () moved

end FirmwareBuild.Disk
