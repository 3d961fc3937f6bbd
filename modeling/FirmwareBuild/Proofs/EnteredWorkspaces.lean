import FirmwareBuild.Proofs.AbsolutePaths
import FirmwareBuild.Proofs.FollowedPaths
import FirmwareBuild.Proofs.RunFrame
import FirmwareBuild.Proofs.StandingPaths
import FirmwareBuild.Workspace
import Mathlib.Data.Fintype.Card

/-! # Entered workspaces

A workspace is entered by its absolute path, and is then where relative paths start. In a
file tree the two stay in step: what a path names by its spelling is the directory that is entered,
going up from there gives its names again (`IsFileTree.locationFrom_number`), and the absolute path
that was given leads there from anywhere. Any number of calls changes nothing but the working
directory (`moves_keep`). -/

namespace FirmwareBuild

namespace Disk

/-! ## Going up from a directory -/

namespace IsFileTree
variable {disk : Disk} (h : disk.IsFileTree)
include h

/-- The names of a location lead through as many nodes, all of them different. -/
theorem length_lt_size {location : Location} {number : Nat}
    (hl : disk.numberAt? root location = some number) : location.length < disk.nodes.size := by
  have hfront (k : Nat) : ∃ middle, disk.numberAt? root (location.take k) = some middle := by
    have hsplit := numberAt?_append disk root (location.take k) (location.drop k)
    rw [List.take_append_drop, hl] at hsplit
    obtain ⟨middle, hm, -⟩ := Option.bind_eq_some_iff.mp hsplit.symm
    exact ⟨middle, hm⟩
  choose middle hmiddle using hfront
  have hlt (k : Nat) : middle k < disk.nodes.size :=
    h.tree.numberAt?_lt h.tree.root_lt (hmiddle k)
  have hinjective : Function.Injective fun k : Fin (location.length + 1) =>
      (⟨middle k, hlt k⟩ : Fin disk.nodes.size) := by
    intro a b hab
    have hsame : middle a = middle b := Fin.mk.inj hab
    have htake := congrArg List.length
      (h.location_unique (hmiddle a) (hsame ▸ hmiddle b))
    rw [List.length_take, List.length_take] at htake
    exact Fin.ext (by omega)
  have hcard := Fintype.card_le_of_injective _ hinjective
  rw [Fintype.card_fin, Fintype.card_fin] at hcard
  exact hcard

theorem locationFrom_length {location : Location} {number : Nat}
    (hl : disk.numberAt? root location = some number)
    (hd : disk.entryAt? location = some .directory) :
    disk.locationFrom (location.length + 1) number = some location := by
  induction location using List.reverseRecOn generalizing number with
  | nil =>
    obtain rfl := Option.some.inj hl
    rfl
  | append_singleton front name ih =>
    obtain ⟨middle, hm, hc⟩ := numberAt?_concat_eq_some.mp hl
    have hnaming := child?_mem_namings hc
    obtain ⟨number', parent, entries, hl', hn⟩ := h.directory_at hd
    obtain rfl := Option.some.inj (hl.symm.trans hl')
    obtain rfl : parent = middle := h.parents _ hnaming parent (by rw [above?, hn]; rfl)
    obtain ⟨holder, hh, he⟩ := mem_namings.mp hnaming
    -- the directory above has one name for the node, which is the one that was looked up
    obtain ⟨entry, hf⟩ : ∃ entry, holder.entries.find? (fun entry => entry.2 = number) =
        some entry :=
      Option.isSome_iff_exists.mp (List.find?_isSome.mpr ⟨_, he, decide_eq_true rfl⟩)
    have hentry : entry.2 = number :=
      of_decide_eq_true
        (List.find?_some (p := fun entry : Bytes × Nat => decide (entry.2 = number)) hf)
    have hother : (⟨parent, entry.1, entry.2⟩ : Naming) ∈ disk.namings :=
      mem_namings.mpr ⟨holder, hh, List.mem_of_find?_eq_some hf⟩
    have hname : entry.1 = name :=
      (Naming.mk.inj (h.single _ hother _ hnaming hentry)).2.1
    have habove := ih hm (h.directory_above (Option.isSome_of_eq_some hd))
    rw [List.length_append, locationFrom, if_neg (h.notRoot _ hnaming), hn]
    refine Option.bind_eq_some_iff.mpr ⟨front, habove, ?_⟩
    refine Option.bind_eq_some_iff.mpr ⟨holder, hh, ?_⟩
    refine Option.bind_eq_some_iff.mpr ⟨entry, hf, ?_⟩
    rw [hname]
    rfl

/-- **What is found by going down from the root is found again by going up from a directory.** -/
theorem locationFrom_number {location : Location} {number : Nat}
    (hl : disk.numberAt? root location = some number)
    (hd : disk.entryAt? location = some .directory) :
    disk.locationFrom disk.nodes.size number = some location :=
  locationFrom_more (h.length_lt_size hl) (h.locationFrom_length hl hd)

/-! ## Another working directory -/

/-- Any directory of a tree can be the working directory, and has the location that it is found
at. -/
theorem moved {location : Location} {number : Nat}
    (hl : disk.numberAt? root location = some number)
    (hd : disk.entryAt? location = some .directory) :
    ({ disk with cwd := number } : Disk).IsFileTree ∧
      ({ disk with cwd := number } : Disk).cwdLocation? = some location := by
  have hkeeps : disk.KeepsNames { disk with cwd := number } :=
    fun _ _ entries hn => ⟨[], by rwa [List.append_nil]⟩
  have hplace : ({ disk with cwd := number } : Disk).cwdLocation? = some location :=
    hkeeps.locationFrom (h.locationFrom_number hl hd)
  have htree : ({ disk with cwd := number } : Disk).IsTree :=
    ⟨h.tree.linkless, h.tree.closed, h.tree.numberAt?_lt h.tree.root_lt hl⟩
  exact ⟨⟨⟨htree, h.plain, h.top, h.single, h.notRoot, h.parents, h.named,
    Option.isSome_of_eq_some hplace⟩, h.distinct, h.standing⟩, hplace⟩

/-- A path that leads to something leads to what is at its location. -/
theorem lookup_number {path : Bytes} {number : Nat} {node : Node}
    (hp : disk.lookup path = .ok (number, node)) :
    disk.numberAt? root (disk.locationOf path) = some number := by
  obtain ⟨place, hplace, hnumber, -⟩ := lookup_eq_ok.mp hp
  obtain ⟨hfollow, -, -⟩ := way_strictNames (disk.startAt path) path
  have hnode := h.resolve_node hplace
  rw [hfollow, ← h.locationOf_eq, hnumber] at hnode
  exact hnode.symm

theorem directory_found {path : Bytes} {number : Nat} {node : Node}
    (hp : disk.lookup path = .ok (number, node)) (hd : node.isDirectory = true) :
    disk.entryAt? (disk.locationOf path) = some .directory := by
  rw [entryAt?, h.lookup_number hp, Option.bind_some, lookup_node hp]
  cases node <;> first | rfl | cases hd

end IsFileTree

/-- A path and its absolute form are at one location. -/
theorem IsRooted.locationOf_absolute {disk : Disk} (h : disk.IsRooted) {path full : Bytes}
    (hp : disk.absolute path = .ok full) : disk.locationOf full = disk.locationOf path := by
  obtain ⟨habsolute, hnames⟩ := h.absolute_names hp
  rw [locationOf, route, habsolute, if_pos rfl, List.nil_append, Pathname.follow_filter, hnames,
    locationOf]

/-- Where an absolute path leads does not depend on the working directory. -/
theorem lookup_of_nodes {disk other : Disk} (hn : other.nodes = disk.nodes) {path : Bytes}
    (habsolute : Pathname.isAbsolute path = true) {found : Nat × Node}
    (hp : disk.lookup path = .ok found) : other.lookup path = .ok found := by
  have hstart (disk : Disk) : start disk.cwd path = root := if_pos habsolute
  obtain ⟨now, hl, -⟩ := (IsWithin.of_nodes hn).lookup ((hstart other).trans (hstart disk).symm) hp
  have hnow := lookup_node hl
  rw [hn, lookup_node hp] at hnow
  rw [hl, ← Option.some.inj hnow]

end Disk

namespace Workspace

/-! ## Single calls -/

variable {s left : Session} {path full : Bytes} {e : BuildError}

theorem absolutePath_eq (path : Bytes) (s : Session) : absolutePath path s =
    match s.disk.absolute path with
    | .ok full => .ok full s
    | .error cause => .error (.io .openWorkspace path cause) s := by
  unfold absolutePath
  change (match s.disk.absolute path with
    | .ok full => pure full
    | .error cause => throw (.io .openWorkspace path cause) : Run Bytes) s = _
  cases s.disk.absolute path <;> rfl

theorem absolutePath_eq_ok :
    absolutePath path s = .ok full left ↔ s.disk.absolute path = .ok full ∧ left = s := by
  rw [absolutePath_eq]
  cases s.disk.absolute path with
  | error cause => simp
  | ok found => simp [eq_comm]

theorem absolutePath_after (path : Bytes) (s : Session) : (absolutePath path).after s = s := by
  rw [Run.after, absolutePath_eq]
  cases s.disk.absolute path <;> rfl

theorem enter_eq (path : Bytes) (s : Session) : enter path s =
    match s.disk.absolute path with
    | .error cause => .error (.io .openWorkspace path cause) s
    | .ok full =>
      match s.disk.lookup full with
      | .error cause => .error (.io .enterWorkspace full cause) s
      | .ok (number, node) =>
        if node.isDirectory then .ok full { s with disk := { s.disk with cwd := number } }
        else .error (.io .enterWorkspace full .notADirectory) s := by
  unfold enter
  have hask := absolutePath_eq path s
  cases ha : s.disk.absolute path with
  | error cause =>
    rw [ha] at hask
    exact Run.bind_of_error hask _
  | ok full =>
    rw [ha] at hask
    rw [Run.bind_of_ok hask]
    dsimp only
    cases hl : s.disk.lookup full with
    | error cause =>
      have hfails : Disk.enter full s.disk = .error cause s.disk := by rw [Disk.enter, hl]
      exact Run.bind_of_error (Run.onDisk_error hfails _ _) _
    | ok found =>
      obtain ⟨number, node⟩ := found
      dsimp only
      split
      · rename_i hd
        have hgoes : Disk.enter full s.disk = .ok () { s.disk with cwd := number } := by
          rw [Disk.enter, hl]
          exact if_pos hd
        exact Run.bind_of_ok (Run.onDisk_ok hgoes _ _) _
      · rename_i hd
        have hfails : Disk.enter full s.disk = .error .notADirectory s.disk := by
          rw [Disk.enter, hl]
          exact if_neg hd
        exact Run.bind_of_error (Run.onDisk_error hfails _ _) _

theorem enter_eq_ok : enter path s = .ok full left ↔ s.disk.absolute path = .ok full ∧
    ∃ number node, s.disk.lookup full = .ok (number, node) ∧ node.isDirectory = true ∧
      left = { s with disk := { s.disk with cwd := number } } := by
  rw [enter_eq]
  cases s.disk.absolute path with
  | error cause => exact ⟨nofun, nofun⟩
  | ok found =>
    dsimp only
    constructor
    · intro h
      split at h
      · cases h
      · rename_i number node hl
        split at h
        · rename_i hd
          cases h
          exact ⟨rfl, number, node, hl, hd, rfl⟩
        · cases h
    · rintro ⟨hfull, number, node, hl, hd, rfl⟩
      obtain rfl := Except.ok.inj hfull
      rw [hl]
      exact if_pos hd

theorem enter_error (h : enter path s = .error e left) : left = s := by
  rw [enter_eq] at h
  split at h
  · cases h
    rfl
  · split at h
    · cases h
      rfl
    · split at h
      · cases h
      · cases h
        rfl

/-! ## Any number of calls -/

/-- A call that asks for the absolute path of a workspace or enters it. -/
inductive Move where
  | ask (path : Bytes)
  | enter (path : Bytes)

def Move.step : Move → Run Bytes
  | .ask path => absolutePath path
  | .enter path => Workspace.enter path

/-- The session after calls, whatever they answer. -/
def moved (moves : List Move) (s : Session) : Session :=
  moves.foldl (fun s move => move.step.after s) s

def movedTo (s : Session) (number : Nat) : Session :=
  { s with disk := { s.disk with cwd := number } }

structure KeepsTrack (s : Session) : Prop where
  /-- The working directory is in the tree. -/
  tree : s.disk.IsFileTree
  /-- Asking changes nothing. -/
  asks : ∀ path, (absolutePath path).after s = s
  /-- The answer is absolute and has the names of the path, behind those of the working directory
  unless the path is absolute itself. -/
  answers : ∀ path, path ≠ [] → ∃ full, absolutePath path s = .ok full s ∧
    Pathname.isAbsolute full = true ∧ Pathname.names full = s.disk.route path
  /-- Only the empty path has no answer. -/
  refuses : absolutePath [] s = .error (.io .openWorkspace [] .emptyPath) s
  /-- Nor does a failure. -/
  fails : ∀ path e left, enter path s = .error e left → left = s
  /-- A directory is entered exactly if the absolute path leads to one. -/
  goes : ∀ path full, (∃ left, enter path s = .ok full left) ↔
    absolutePath path s = .ok full s ∧ s.disk.isDirectory full = true
  /-- It is the one that the path leads to, and the location that the path comes to. -/
  enters : ∀ path full left, enter path s = .ok full left → ∃ number node,
    s.disk.lookup full = .ok (number, node) ∧ left = movedTo s number ∧
      left.disk.cwdLocation? = some (s.disk.locationOf path)
  /-- The path that was given stays as it is, and leads there from any working directory. -/
  returns : ∀ path full left, enter path s = .ok full left →
    ∀ later : Session, later.disk.nodes = s.disk.nodes →
      absolutePath full later = .ok full later ∧
        enter full later = .ok full (movedTo later left.disk.cwd)

theorem keepsTrack (h : s.disk.IsFileTree) : KeepsTrack s := by
  refine ⟨h, fun path => absolutePath_after path s, fun path hne => ?_, rfl,
    fun path e left => enter_error, fun path full => ?_, fun path full left hp => ?_,
    fun path full left hp later hn => ?_⟩
  · obtain ⟨full, hfull⟩ := h.absolute_ok hne
    exact ⟨full, absolutePath_eq_ok.mpr ⟨hfull, rfl⟩, h.absolute_names hfull⟩
  · rw [absolutePath_eq_ok]
    constructor
    · rintro ⟨left, hp⟩
      obtain ⟨ha, number, node, hl, hd, -⟩ := enter_eq_ok.mp hp
      refine ⟨⟨ha, rfl⟩, ?_⟩
      rw [Disk.isDirectory, Disk.node?, hl]
      exact hd
    · rintro ⟨⟨ha, -⟩, hd⟩
      rw [Disk.isDirectory, Disk.node?] at hd
      cases hl : s.disk.lookup full with
      | error cause => rw [hl] at hd; cases hd
      | ok found =>
        rw [hl] at hd
        exact ⟨_, enter_eq_ok.mpr ⟨ha, found.1, found.2, hl, hd, rfl⟩⟩
  · obtain ⟨ha, number, node, hl, hd, rfl⟩ := enter_eq_ok.mp hp
    rw [← h.locationOf_absolute ha]
    exact ⟨number, node, hl, rfl, (h.moved (h.lookup_number hl) (h.directory_found hl hd)).2⟩
  · obtain ⟨ha, number, node, hl, hd, rfl⟩ := enter_eq_ok.mp hp
    have hagain := h.absolute_absolute ha later.disk
    have hback := Disk.lookup_of_nodes hn (h.absolute_names ha).1 hl
    exact ⟨absolutePath_eq_ok.mpr ⟨hagain, rfl⟩,
      enter_eq_ok.mpr ⟨hagain, number, node, hback, hd, rfl⟩⟩

/-- A call changes nothing but the working directory, which stays in the tree. -/
theorem Move.after_step (h : s.disk.IsFileTree) (move : Move) :
    ∃ number, move.step.after s = movedTo s number ∧ (movedTo s number).disk.IsFileTree := by
  cases move with
  | ask path => exact ⟨s.disk.cwd, absolutePath_after path s, h⟩
  | enter path =>
    have hp : (Move.enter path).step = Workspace.enter path := rfl
    rw [hp, Run.after]
    cases hs : Workspace.enter path s with
    | error e left => exact ⟨s.disk.cwd, enter_error hs, h⟩
    | ok full left =>
      obtain ⟨ha, number, node, hl, hd, rfl⟩ := enter_eq_ok.mp hs
      exact ⟨number, rfl, (h.moved (h.lookup_number hl) (h.directory_found hl hd)).1⟩

/-- **Spelling and working directory stay in step.** From any directory of a tree, any number of
calls with any paths changes nothing but the working directory, and only by entering a workspace:
the directory that its absolute path leads to, which is the location that the path comes to by its
names. The absolute path is then its own absolute path and leads to the same directory, wherever
the calls go from there. -/
theorem moves_keep (h : s.disk.IsFileTree) (moves : List Move) :
    (∃ number, moved moves s = movedTo s number) ∧ KeepsTrack (moved moves s) := by
  induction moves generalizing s with
  | nil => exact ⟨⟨s.disk.cwd, rfl⟩, keepsTrack h⟩
  | cons move rest ih =>
    obtain ⟨number, hmove, htree⟩ := move.after_step h
    obtain ⟨⟨last, hlast⟩, hkeeps⟩ := ih htree
    have hmoved : moved (move :: rest) s = moved rest (movedTo s number) := by
      rw [moved, List.foldl_cons, hmove]
      rfl
    rw [hmoved]
    exact ⟨⟨last, hlast⟩, hkeeps⟩

/-- Two directories, one in the other, and a file. -/
def nested : Disk where
  nodes := #[.directory 0 [(Utf8.encode "src".toList, 1), (Utf8.encode "log".toList, 3)],
    .directory 0 [(Utf8.encode "fw".toList, 2)], .directory 1 [], .file [] plainMode]
  cwd := 1

/-- Calls that go down, up and past the root, and some that fail. -/
def wandering : List Move :=
  [.enter (Utf8.encode "./fw//".toList), .ask (Utf8.encode "../gone".toList), .enter [],
    .enter (Utf8.encode "/log".toList), .enter (Utf8.encode "../../..//src/.".toList)]

theorem moves_keep_wandering :
    nested.IsFileTree ∧ (∃ number, moved wandering { disk := nested } =
      movedTo { disk := nested } number) ∧ KeepsTrack (moved wandering { disk := nested }) ∧
    ((moved wandering { disk := nested }).disk.cwdPath? = some (Utf8.encode "/src".toList)) := by
  have htree : nested.IsFileTree := by decide
  obtain ⟨hmoved, hkeeps⟩ := moves_keep (s := { disk := nested }) htree wandering
  exact ⟨htree, hmoved, hkeeps, by decide +kernel⟩

end Workspace

end FirmwareBuild
