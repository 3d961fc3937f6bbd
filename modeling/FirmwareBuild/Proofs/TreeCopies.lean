import FirmwareBuild.Proofs.MadeDirectories
import FirmwareBuild.Proofs.RootedSteps

/-! # Copies in file trees

A copy to a path where nothing is gives the target all that stands at the source, the
mode too, exactly if both paths can be followed and there is a file to be copied
(`copy_spec`). What can be read by a path stays readable as long as nothing that
stands somewhere goes. -/

namespace FirmwareBuild.Disk

/-! ## What stays -/

structure KeepsEntries (old new : Disk) : Prop where
  tree : new.IsFileTree
  cwd : new.cwdLocation? = old.cwdLocation?
  entries : ∀ l entry, old.entryAt? l = some entry → new.entryAt? l = some entry

theorem KeepsEntries.trans {a b c : Disk} (hab : KeepsEntries a b) (hbc : KeepsEntries b c) :
    KeepsEntries a c :=
  ⟨hbc.tree, hbc.cwd.trans hab.cwd, fun l entry hl => hbc.entries l entry (hab.entries l entry hl)⟩

theorem KeepsEntries.reachable {old new : Disk} (h : KeepsEntries old new) {path : Bytes}
    (hreach : old.IsReachable path) : new.IsReachable path := by
  refine ⟨hreach.notEmpty, hreach.fits, fun l hl => ?_⟩
  rw [wayOf_congr h.cwd] at hl
  exact h.entries l _ (hreach.way l hl)

namespace IsFileTree
variable {disk : Disk} (h : disk.IsFileTree) {path : Bytes}
  (hslash : Pathname.endsInSlash path = false)
include h hslash

theorem read_iff {data : Bytes} : disk.read path = .ok data ↔ disk.IsReachable path ∧
    ∃ entry, disk.entryAt? (disk.locationOf path) = some entry ∧ entry.data? = some data := by
  unfold read
  constructor
  · intro hread
    cases hl : disk.lookup path with
    | error cause => rw [hl] at hread; cases hread
    | ok found =>
      obtain ⟨number, node⟩ := found
      obtain ⟨hreach, hnumber, hn⟩ := (h.lookup_iff hslash).mp hl
      rw [hl] at hread
      refine ⟨hreach, entryOf node, by rw [entryAt?, hnumber, Option.bind_some, hn]; rfl, ?_⟩
      dsimp only at hread
      split at hread
      · cases hread
      · rename_i hd
        have hfile := h.isFile_of_not_directory hn (Bool.not_eq_true _ ▸ hd)
        cases node with
        | file contents mode => exact congrArg some (Except.ok.inj hread)
        | program name mode => exact congrArg some (Except.ok.inj hread)
        | _ => cases hfile
  · rintro ⟨hreach, entry, hentry, hdata⟩
    obtain ⟨node, hbind, rfl⟩ := Option.map_eq_some_iff.mp hentry
    obtain ⟨number, hnumber, hn⟩ := Option.bind_eq_some_iff.mp hbind
    rw [(h.lookup_iff hslash).mpr ⟨hreach, hnumber, hn⟩]
    cases node with
    | file contents mode => exact congrArg Except.ok (Option.some.inj hdata)
    | program name mode => exact congrArg Except.ok (Option.some.inj hdata)
    | _ => cases hdata

theorem read_of_entry (hreach : disk.IsReachable path)
    (hentry : ∃ entry data, disk.entryAt? (disk.locationOf path) = some entry ∧
      entry.data? = some data) : ∃ data, disk.read path = .ok data := by
  obtain ⟨entry, data, hentry, hdata⟩ := hentry
  exact ⟨data, (h.read_iff hslash).mpr ⟨hreach, entry, hentry, hdata⟩⟩

theorem read_kept {new : Disk} {data : Bytes} (hkept : KeepsEntries disk new)
    (hread : disk.read path = .ok data) : new.read path = .ok data := by
  obtain ⟨hreach, entry, hentry, hdata⟩ := (h.read_iff hslash).mp hread
  refine (hkept.tree.read_iff hslash).mpr ⟨hkept.reachable hreach, entry, ?_, hdata⟩
  rw [locationOf_congr hkept.cwd]
  exact hkept.entries _ _ hentry

end IsFileTree

/-! ## Copies to where nothing is -/

/-- A file tree becomes another one by what is new at a location. -/
structure Gains (location : Location) (entry : Entry) (old new : Disk) : Prop where
  tree : new.IsFileTree
  cwd : new.cwdLocation? = old.cwdLocation?
  free : old.entryAt? location = none
  gained : new.entryAt? location = some entry
  others : ∀ l, l ≠ location → new.entryAt? l = old.entryAt? l

theorem Gains.keeps {location : Location} {entry : Entry} {old new : Disk}
    (h : Gains location entry old new) : KeepsEntries old new := by
  refine ⟨h.tree, h.cwd, fun l held hl => ?_⟩
  rw [h.others l, hl]
  rintro rfl
  cases hl.symm.trans h.free

theorem Adds.gains {old new : Disk} {place : Place} {node : Node} (h : old.Adds place node new)
    (hr : old.IsFileTree) (hname : Pathname.IsName place.name) (hfile : node.isFile)
    {above : Location} (ha : old.numberAt? root above = some place.directory) :
    Gains (above ++ [place.name]) (entryOf node) old new := by
  have hbare : node.IsBare place.directory := .inl hfile
  have hentries := h.entryAt?_eq hr.toIsRooted hname hbare ha
  refine ⟨h.isFileTree hr hname hbare, h.cwdLocation?_eq hr.toIsRooted, ?_, ?_, fun l hl => ?_⟩
  · obtain ⟨parent, entries, hd, hnone⟩ := h.free
    rw [← Option.not_isSome_iff_eq_none, entryAt?_isSome hr.tree, Option.isSome_iff_exists]
    rintro ⟨number, hn⟩
    obtain ⟨middle, hm, hc⟩ := numberAt?_concat_eq_some.mp hn
    obtain rfl := Option.some.inj (ha.symm.trans hm)
    rw [child?, hd] at hc
    cases hnone.symm.trans hc
  · rw [hentries, if_pos rfl]
  · rw [hentries, if_neg hl]

/-- A new file with the mode of an old one becomes all that the old one is. -/
theorem Adds.copyData_same {old new : Disk} {place : Place} {data : Bytes} {mode number : Nat}
    {node : Node} (h : old.Adds place (.file data mode) new)
    (hs : old.nodes[number]? = some node) (hmode : node.mode? = some mode) :
    old.Adds place node (new.copyData number old.nodes.size) := by
  have hlt := (Array.getElem?_eq_some_iff.mp hs).1
  have hother : number ≠ place.directory := by
    rintro rfl
    obtain ⟨parent, entries, hfree, -⟩ := h.free
    cases hs.symm.trans hfree
    cases hmode
  have hkept : new.nodes[number]? = some node :=
    (h.others number hother (Nat.ne_of_lt hlt)).trans hs
  cases node with
  | file contents rights =>
    obtain rfl := Option.some.inj hmode
    rw [Disk.copyData, hkept, h.added]
    exact h.setData contents
  | program name rights =>
    obtain rfl := Option.some.inj hmode
    rw [Disk.copyData, hkept, h.added]
    exact (h.setNode _).congr rfl rfl
  | _ => cases hmode

theorem openFile_free {disk : Disk} {path : Bytes} {place : Place}
    (hslash : Pathname.endsInSlash path = false) (hp : disk.locate true path = .ok place)
    (hn : place.node = none) (mode : Nat) :
    openFile path mode disk = .ok disk.nodes.size (disk.addNode place (.file [] mode)).2 := by
  have hr : disk.resolve true path (Pathname.names path) = .ok place := hp
  unfold openFile
  rw [hslash]
  dsimp only
  rw [if_neg Bool.false_ne_true, hr]
  dsimp only
  rw [if_neg Bool.false_ne_true, hn]
  rfl

theorem openFile_lost {disk : Disk} {path : Bytes} {cause : IoError}
    (hslash : Pathname.endsInSlash path = false) (hp : disk.locate true path = .error cause)
    (mode : Nat) : openFile path mode disk = .error cause disk := by
  have hr : disk.resolve true path (Pathname.names path) = .error cause := hp
  unfold openFile
  rw [hslash]
  dsimp only
  rw [if_neg Bool.false_ne_true, hr]

/-- There is a file to be copied, and both paths can be followed. -/
structure IsCopyable (disk : Disk) (source target : Bytes) : Prop where
  source : ∃ data, disk.read source = .ok data
  target : disk.IsReachable target

def IsCopying (disk : Disk) (source target : Bytes) : EStateM.Result IoError Disk Unit → Prop
  | .ok _ new => disk.IsCopyable source target ∧
      ∃ entry, disk.entryAt? (disk.locationOf source) = some entry ∧
        Gains (disk.locationOf target) entry disk new
  | .error _ left => left = disk ∧ ¬ disk.IsCopyable source target

/-- **A copy to where nothing is** gives it all that stands at the source. -/
theorem copy_spec {disk : Disk} (h : disk.IsFileTree) {source target : Bytes}
    (hs : Pathname.endsInSlash source = false) (ht : Pathname.endsInSlash target = false)
    (hnew : disk.pathExists target = false) :
    IsCopying disk source target (copy source target disk) := by
  have hread {data : Bytes} (hr : disk.read source = .ok data) :
      ∃ number node mode, disk.lookup source = .ok (number, node) ∧ node.mode? = some mode := by
    obtain ⟨hreach, entry, hentry, hdata⟩ := (h.read_iff hs).mp hr
    obtain ⟨node, hbind, rfl⟩ := Option.map_eq_some_iff.mp hentry
    obtain ⟨number, hnumber, hn⟩ := Option.bind_eq_some_iff.mp hbind
    have hmode : ∃ mode, node.mode? = some mode := by
      cases node with
      | file contents mode => exact ⟨mode, rfl⟩
      | program name mode => exact ⟨mode, rfl⟩
      | _ => cases hdata
    obtain ⟨mode, hmode⟩ := hmode
    exact ⟨number, node, mode, (h.lookup_iff hs).mpr ⟨hreach, hnumber, hn⟩, hmode⟩
  unfold copy
  cases hl : disk.lookup source with
  | error cause =>
    refine ⟨rfl, fun hcopy => ?_⟩
    obtain ⟨data, hr⟩ := hcopy.source
    obtain ⟨number, node, mode, hfound, -⟩ := hread hr
    cases hl.symm.trans hfound
  | ok found =>
    obtain ⟨number, node⟩ := found
    obtain ⟨hreach, hnumber, hn⟩ := (h.lookup_iff hs).mp hl
    dsimp only
    cases hm : node.mode? with
    | none =>
      refine ⟨rfl, fun hcopy => ?_⟩
      obtain ⟨data, hr⟩ := hcopy.source
      obtain ⟨number', node', mode, hfound, hmode⟩ := hread hr
      cases hl.symm.trans hfound
      cases hm.symm.trans hmode
    | some mode =>
      obtain ⟨data, hdata, hnotDirectory⟩ := mode?_data? hm
      dsimp only
      cases hp : disk.locate true target with
      | error cause =>
        rw [openFile_lost ht hp]
        refine ⟨rfl, fun hcopy => ?_⟩
        obtain ⟨place, hplace⟩ : ∃ place, disk.locate true target = .ok place :=
          h.locate_iff.mpr hcopy.target
        cases hp.symm.trans hplace
      | ok place =>
        have htarget : disk.IsReachable target := h.locate_iff.mp ⟨place, hp⟩
        have hnone : place.node = none := by
          rw [h.locate_node hp, ← Option.not_isSome_iff_eq_none, ← entryAt?_isSome h.tree]
          intro hsome
          rw [(h.pathExists_iff ht).mpr ⟨htarget, hsome⟩] at hnew
          cases hnew
        obtain ⟨hname, hfree, above, ha, he⟩ := h.free_place hp hnone
        -- the target is opened empty, with the mode of the source, before the data comes
        have hemptied := ((addNode_adds hfree (.file [] mode)).setData []).setMode mode
        have hcopied := hemptied.copyData_same hn hm
        rw [openFile_free ht hp hnone]
        dsimp only
        rw [(addNode_adds hfree (.file [] mode)).added]
        have hentry : disk.entryAt? (disk.locationOf source) = some (entryOf node) := by
          rw [entryAt?, hnumber, Option.bind_some, hn]
          rfl
        have hsource : disk.read source = .ok data := by
          rw [read, hl]
          dsimp only
          rw [hnotDirectory, hdata]
          rfl
        refine ⟨⟨⟨data, hsource⟩, htarget⟩, entryOf node, hentry, ?_⟩
        rw [he]
        exact hcopied.gains h hname (Node.isFile_of_data? hdata) ha

end FirmwareBuild.Disk
