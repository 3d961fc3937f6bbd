import FirmwareBuild.Proofs.DiskChanges
import FirmwareBuild.Proofs.Seeding
import FirmwareBuild.Proofs.Utf8

/-! # The files that seeding makes

Between making the configuration directory and each of the copies behind it a disk
can be looked at. From one such moment to the next every file stays as it is, and
a file that appears is a configuration file with what its template then held. -/

namespace FirmwareBuild

open Disk ConfDirectory

theorem Pathname.endsInSlash_append (front : Bytes) {back : Bytes} (h : back ≠ []) :
    endsInSlash (front ++ back) = endsInSlash back := by
  rw [endsInSlash, List.getLast?_append, List.getLast?_eq_some_getLast h, endsInSlash,
    List.getLast?_eq_some_getLast h]
  rfl

theorem Pathname.endsInSlash_join (base : Bytes) {path : Bytes} (h : path ≠ []) :
    endsInSlash (join base path) = endsInSlash path := by
  unfold join
  split
  · rfl
  · split
    · exact endsInSlash_append base h
    · rw [List.append_cons]
      exact endsInSlash_append (base ++ [slash]) h

theorem Pathname.join_relative {path : Bytes} (h : isAbsolute path = false) (base : Bytes) :
    join base path = if base.isEmpty || endsInSlash base then base ++ path
      else base ++ slash :: path := by
  rw [join, h, if_neg Bool.false_ne_true]

/-- The way to a name in a directory that is below another one. -/
theorem Pathname.join_join {a b : Bytes} (hne : a ≠ []) (ha : isAbsolute a = false)
    (hs : endsInSlash a = false) (hb : isAbsolute b = false) (base : Bytes) :
    join (join base a) b = join base (join a b) := by
  have hbelow (front : Bytes) : join (front ++ a) b = front ++ (a ++ slash :: b) := by
    have hempty : (front ++ a).isEmpty = false := by simp [hne]
    rw [join_relative hb, hempty, endsInSlash_append front hne, hs, Bool.or_false,
      if_neg Bool.false_ne_true, List.append_assoc]
  have hab : join a b = a ++ slash :: b := hbelow []
  have hrelative : isAbsolute (a ++ slash :: b) = false := by
    cases a with
    | nil => exact absurd rfl hne
    | cons octet rest => exact ha
  rw [hab, join_relative ha, join_relative hrelative]
  split
  · exact hbelow base
  · have hstep := hbelow (base ++ [slash])
    simpa using hstep

namespace Disk

def LeadsTo (disk : Disk) (path : Bytes) (location : Location) : Prop :=
  ∃ number node, disk.lookup path = .ok (number, node) ∧
    disk.numberAt? root location = some number

/-- Every file of a disk is on another one, at the same location with the same data. -/
def KeepsFiles (old new : Disk) : Prop :=
  ∀ location data, old.fileAt? location = some data → new.fileAt? location = some data

instance : Trans KeepsFiles KeepsFiles KeepsFiles where
  trans hab hbc location data hd := hbc location data (hab location data hd)

/-- What may become of the files while `workspace` is seeded, or while nothing is: none goes or
changes, and those that appear are configuration files that hold what their templates held. -/
structure Follows (workspace : Option Bytes) (old new : Disk) : Prop where
  tree : new.IsTree
  kept : KeepsFiles old new
  created : ∀ location data, new.fileAt? location = some data → old.fileAt? location = none →
    ∃ w, workspace = some w ∧ ∃ file ∈ files, new.LeadsTo (filePath w file) location ∧
      old.read (templatePath w file) = .ok data

theorem SameFiles.follows {old new : Disk} (h : old.SameFiles new) (workspace : Option Bytes) :
    Follows workspace old new := by
  refine ⟨h.tree, fun location data hd => (h.files location).trans hd, ?_⟩
  intro location data hnew hold
  rw [h.files, hold] at hnew
  cases hnew

/-- The path of a new file leads to it, wherever it can be found. -/
theorem Adds.leadsTo {old new : Disk} {place : Place} {node : Node} (h : old.Adds place node new)
    (ht : old.IsTree) (ht' : new.IsTree) {path : Bytes}
    (hr : old.resolve true path (strictNames path) = .ok place) (hnone : place.node = none)
    {location : Location} (hl : new.numberAt? root location = some old.nodes.size) :
    new.LeadsTo path location := by
  refine ⟨old.nodes.size, node, ?_, hl⟩
  have hnew := h.resolve ht ht' hr hnone
  rw [lookup, look, hnew]
  dsimp only [bind, Except.bind]
  rw [h.added]

theorem data?_plain {node : Node} {data : Bytes} (h : node.data? = some data) :
    node.isLink = false ∧ node.entries = [] ∧ node.mentioned = [] := by
  cases node with
  | file contents mode => exact ⟨rfl, rfl, rfl⟩
  | program name mode => exact ⟨rfl, rfl, rfl⟩
  | _ => cases h

end Disk

namespace ConfDirectory

theorem filePath_endsInSlash (workspace : Bytes) (file : Text) :
    Pathname.endsInSlash (filePath workspace file) = false := by
  have hending : Utf8.encode ".txt".toList ≠ [] := by decide
  have hname : Utf8.encode file ++ Utf8.encode ".txt".toList ≠ [] :=
    List.append_ne_nil_of_right_ne_nil _ hending
  rw [filePath, Utf8.encode_append, Pathname.endsInSlash_join _ hname,
    Pathname.endsInSlash_append _ hending]
  decide

/-- One copy follows what was there before it. -/
theorem copy_follows {disk : Disk} (ht : disk.IsTree) (workspace : Bytes) {file : Text}
    (hf : file ∈ files) (hnew : disk.pathExists (filePath workspace file) = false) :
    Follows (some workspace) disk
      (left (Disk.copy (templatePath workspace file) (filePath workspace file) disk)) := by
  rcases copy_new ht (templatePath workspace file) (filePath_endsInSlash workspace file) hnew with
    ⟨cause, hc⟩ | ⟨place, node, data, new, hc, hr, hnone, hadds, hdata, hread⟩
  · rw [hc]
    exact (SameFiles.refl ht).follows _
  · rw [hc]
    obtain ⟨hlink, hentries, hmentioned⟩ := data?_plain hdata
    have ht' : new.IsTree := hadds.isTree ht hlink (by rw [hmentioned]; exact nofun)
    refine ⟨ht', fun location held hold => ?_, fun location held hnow hold => ?_⟩
    · change new.fileAt? location = some held
      rw [hadds.fileAt?_eq ht hentries, if_neg, hold]
      intro hl
      rw [hadds.fileAt?_before ht hl] at hold
      cases hold
    · change new.fileAt? location = some held at hnow
      rw [hadds.fileAt?_eq ht hentries] at hnow
      split at hnow
      · rename_i hl
        rw [hdata] at hnow
        obtain rfl := Option.some.inj hnow
        exact ⟨workspace, rfl, file, hf, hadds.leadsTo ht ht' hr hnone hl, hread⟩
      · rw [hold] at hnow
        cases hnow

/-- Looking at one file, and copying its template if it is missing, follows what was there. -/
theorem copyMissing_follows {s : Session} (ht : s.disk.IsTree) (workspace : Bytes) {file : Text}
    (hf : file ∈ files) :
    Follows (some workspace) s.disk ((copyMissing workspace [file]).after s).disk := by
  cases hp : s.disk.pathExists (filePath workspace file) with
  | true =>
    have h : copyMissing workspace [file] s = .ok [] s := copyMissing_of_exists hp []
    rw [Run.after_ok h]
    exact (SameFiles.refl ht).follows _
  | false =>
    have hcopy := copy_follows ht workspace hf hp
    rw [Run.after, copyMissing_of_missing hp]
    cases hc : Disk.copy (templatePath workspace file) (filePath workspace file) s.disk with
    | ok u copied =>
      rw [hc] at hcopy
      rw [Run.bind_of_ok (Run.onDisk_ok hc _ _)]
      exact hcopy
    | error cause copied =>
      rw [hc] at hcopy
      rw [Run.bind_of_error (Run.onDisk_error hc _ _)]
      exact hcopy

/-! ## The moments of seeding -/

def seedFirst (workspace : Bytes) (count : Nat) : Run (List Text) := do
  Run.onDisk .create (directory workspace) (Disk.makeDirectories (directory workspace))
  copyMissing workspace (files.take count)

/-- What is on the disk at a moment of seeding. -/
def seededFirst (workspace : Bytes) (count : Nat) (disk : Disk) : Disk :=
  ((seedFirst workspace count).after { disk }).disk

theorem seed_eq (workspace : Bytes) : seed workspace = seedFirst workspace files.length := by
  rw [seedFirst, List.take_length]
  rfl

theorem seededFirst_length (workspace : Bytes) (disk : Disk) :
    seededFirst workspace files.length disk = seeded workspace disk := by
  rw [seededFirst, ← seed_eq]
  rfl

/-- One more file is looked at after the others, unless one of those could not be copied. -/
theorem seedFirst_succ (workspace : Bytes) {count : Nat} (h : count < files.length) :
    seedFirst workspace (count + 1) = (do
      let copied ← seedFirst workspace count
      let others ← copyMissing workspace [files[count]]
      return copied ++ others) := by
  rw [seedFirst, List.take_succ_eq_append_getElem h, copyMissing_append, seedFirst, bind_assoc]

/-- The directory comes first, and making it leaves the files as they are. -/
theorem seededFirst_zero {disk : Disk} (ht : disk.IsTree) (workspace : Bytes) :
    Follows (some workspace) disk (seededFirst workspace 0 disk) := by
  have hsame := makeDirectories_sameFiles ht (directory workspace)
  rw [seededFirst, seedFirst, Run.after]
  cases hm : Disk.makeDirectories (directory workspace) disk with
  | ok u made =>
    rw [hm] at hsame
    rw [Run.bind_of_ok (Run.onDisk_ok hm _ _)]
    exact hsame.follows _
  | error cause made =>
    rw [hm] at hsame
    rw [Run.bind_of_error (Run.onDisk_error hm _ _)]
    exact hsame.follows _

theorem seededFirst_succ {disk : Disk} {workspace : Bytes} {count : Nat}
    (ht : (seededFirst workspace count disk).IsTree) (h : count < files.length) :
    Follows (some workspace) (seededFirst workspace count disk)
      (seededFirst workspace (count + 1) disk) := by
  rw [seededFirst] at ht
  rw [seededFirst, seededFirst, seedFirst_succ workspace h]
  cases hs : seedFirst workspace count { disk } with
  | ok copied middle =>
    rw [Run.after_ok hs] at ht ⊢
    have hfollows := copyMissing_follows ht workspace (List.getElem_mem h)
    rw [Run.after, Run.bind_of_ok hs]
    cases hc : copyMissing workspace [files[count]] middle with
    | ok others last =>
      rw [Run.after_ok hc] at hfollows
      rw [Run.bind_of_ok hc]
      exact hfollows
    | error e last =>
      rw [Run.after_error hc] at hfollows
      rw [Run.bind_of_error hc]
      exact hfollows
  | error e last =>
    rw [Run.after_error hs] at ht ⊢
    rw [Run.after_error (Run.bind_of_error hs _)]
    exact (SameFiles.refl ht).follows _

/-- At every moment of seeding the disk is a tree. -/
theorem seededFirst_isTree {disk : Disk} (ht : disk.IsTree) (workspace : Bytes) :
    ∀ count ≤ files.length, (seededFirst workspace count disk).IsTree := by
  intro count
  induction count with
  | zero => exact fun _ => (seededFirst_zero ht workspace).tree
  | succ count ih => exact fun h => (seededFirst_succ (ih (Nat.le_of_lt h)) h).tree

theorem seeded_isTree {disk : Disk} (ht : disk.IsTree) (workspace : Bytes) :
    (seeded workspace disk).IsTree := by
  rw [← seededFirst_length]
  exact seededFirst_isTree ht workspace _ (Nat.le_refl _)

end ConfDirectory

end FirmwareBuild
