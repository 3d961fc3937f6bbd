import FirmwareBuild.Proofs.PathNames
import FirmwareBuild.Proofs.RootedChanges

/-! # Steps on rooted trees

What the two operations of copying trees do to a rooted tree, said by locations:
making a directory adds directories on the way to it and touches no file
(`makeDirectories_grows`), and copying a file gives one location the data that
another one holds (`copy_rooted`). An operation that fails leaves the files alone. -/

namespace FirmwareBuild.Disk

variable {disk : Disk}

/-! ## Paths that start at the root -/

namespace IsRooted

theorem resolve_found (h : disk.IsRooted) {followsLast : Bool} {path : Bytes} {names : List Bytes}
    {place : Place} (habsolute : Pathname.isAbsolute path = true)
    (hp : disk.resolve followsLast path names = .ok place) :
    (∀ number, place.node = some number →
      disk.numberAt? root (Pathname.follow [] names) = some number) ∧
    (place.node = none → IsOrdinary place.name ∧ place.name ∈ names ∧ ∃ above,
      disk.numberAt? root above = some place.directory ∧
        Pathname.follow [] names = above ++ [place.name]) := by
  obtain ⟨onLink, hp⟩ := resolve_ok hp
  have hleads := (along_iff_leads h.tree).mp hp
  rw [start, if_pos habsolute] at hleads
  exact h.leads_found hleads rfl

theorem adds_rooted (h : disk.IsRooted) {followsLast : Bool} {path : Bytes} {place : Place}
    (habsolute : Pathname.isAbsolute path = true)
    (hp : disk.resolve followsLast path (Pathname.names path) = .ok place)
    (hnone : place.node = none) : Pathname.IsName place.name ∧ ∃ above,
      disk.numberAt? root above = some place.directory ∧
        Pathname.follow [] (Pathname.names path) = above ++ [place.name] := by
  obtain ⟨hordinary, hm, habove⟩ := (h.resolve_found habsolute hp).2 hnone
  obtain ⟨hne, hslash⟩ := Pathname.mem_names hm
  exact ⟨⟨hne, hslash, hordinary.notHere, hordinary.notUp⟩, habove⟩

theorem lookup_found (h : disk.IsRooted) {path : Bytes} {number : Nat} {node : Node}
    (habsolute : Pathname.isAbsolute path = true) (hl : disk.lookup path = .ok (number, node)) :
    disk.numberAt? root (Pathname.follow [] (Pathname.names path)) = some number ∧
      disk.nodes[number]? = some node := by
  have hn := lookup_node hl
  unfold lookup look at hl
  cases hr : disk.resolve true path (strictNames path) with
  | error cause => rw [hr] at hl; cases hl
  | ok place =>
    rw [hr] at hl
    dsimp only [bind, Except.bind] at hl
    split at hl
    · cases hl
    · rename_i found hplace
      split at hl
      · cases hl
        have hfound := (h.resolve_found habsolute hr).1 number hplace
        have hstrict : Pathname.follow [] (strictNames path) =
            Pathname.follow [] (Pathname.names path) := by
          rw [strictNames, Pathname.follow_append]
          split <;> rfl
        rw [hstrict] at hfound
        exact ⟨hfound, hn⟩
      · cases hl

theorem isFile_of_not_directory (h : disk.IsRooted) {number : Nat} {node : Node}
    (hn : disk.nodes[number]? = some node) (hd : node.isDirectory = false) : node.isFile := by
  rcases h.plain node (Array.mem_of_getElem? hn) with hf | ha
  · exact hf
  · cases node with
    | directory parent entries => cases hd
    | removed parent => cases hd
    | _ => cases ha

theorem fileAt?_of_read (h : disk.IsRooted) {path data : Bytes}
    (habsolute : Pathname.isAbsolute path = true) (hread : disk.read path = .ok data) :
    disk.fileAt? (Pathname.follow [] (Pathname.names path)) = some data := by
  unfold read at hread
  cases hl : disk.lookup path with
  | error cause => rw [hl] at hread; cases hread
  | ok found =>
    obtain ⟨number, node⟩ := found
    obtain ⟨hnumber, hn⟩ := h.lookup_found habsolute hl
    rw [hl] at hread
    dsimp only at hread
    split at hread
    · cases hread
    · rename_i hd
      have hfile := h.isFile_of_not_directory hn (Bool.not_eq_true _ ▸ hd)
      obtain ⟨-, -, -, -, -, held, hheld⟩ := Node.isFile_facts hfile
      rw [hheld] at hread
      obtain rfl := Except.ok.inj hread
      rw [fileAt?, hnumber, Option.bind_some, hn, Option.bind_some, hheld]
      rfl

end IsRooted

/-! ## Making directories -/

/-- A rooted tree becomes another one by directories that are made at some of the given
locations. -/
structure GrowsAt (given : Location → Prop) (old new : Disk) : Prop where
  rooted : new.IsRooted
  cwd : new.cwdLocation? = old.cwdLocation?
  files : ∀ location, new.fileAt? location = old.fileAt? location
  kept : ∀ location, old.HasDirectory location → new.HasDirectory location
  made : ∀ location, new.HasDirectory location → old.HasDirectory location ∨ given location

namespace GrowsAt
variable {given more : Location → Prop} {a b c : Disk}

theorem refl (h : a.IsRooted) : GrowsAt given a a :=
  ⟨h, rfl, fun _ => rfl, fun _ hd => hd, fun _ hd => .inl hd⟩

theorem trans (hab : GrowsAt given a b) (hbc : GrowsAt given b c) : GrowsAt given a c := by
  refine ⟨hbc.rooted, hbc.cwd.trans hab.cwd, fun location => ?_, fun location hd => ?_,
    fun location hd => ?_⟩
  · rw [hbc.files, hab.files]
  · exact hbc.kept location (hab.kept location hd)
  · rcases hbc.made location hd with hb | hg
    · exact hab.made location hb
    · exact .inr hg

theorem mono (h : GrowsAt given a b) (hg : ∀ location, given location → more location) :
    GrowsAt more a b :=
  ⟨h.rooted, h.cwd, h.files, h.kept,
    fun location hd => (h.made location hd).imp_right (hg location)⟩

end GrowsAt

theorem makeDirectory_grows (h : disk.IsRooted) {path : Bytes}
    (habsolute : Pathname.isAbsolute path = true) :
    GrowsAt (· = Pathname.follow [] (Pathname.names path)) disk
      (left (makeDirectory path disk)) := by
  unfold makeDirectory
  cases hl : disk.locate false path with
  | error cause => exact .refl h
  | ok place =>
    dsimp only
    cases hn : place.node with
    | some number => exact .refl h
    | none =>
      have hadds := addNode_adds (resolve_free h.tree hl hn) (.directory place.directory [])
      have hbare : Node.IsBare place.directory (.directory place.directory []) := .inr rfl
      obtain ⟨hname, above, ha, he⟩ := h.adds_rooted habsolute hl hn
      have hrooted := hadds.isRooted h hname hbare
      refine ⟨hrooted, hadds.cwdLocation?_eq h, fun location => ?_, fun location hd => ?_,
        fun location hd => ?_⟩
      · exact (hadds.sameFiles h.tree).files location
      · exact (hadds.hasDirectory_iff h hname hbare ha).mpr (.inl hd)
      · rcases (hadds.hasDirectory_iff h hname hbare ha).mp hd with hd | ⟨hl, -⟩
        · exact .inl hd
        · exact .inr (hl.trans he.symm)

/-- Directories are made where a start of the path's names leads, whether all of them can be made
or not. -/
theorem makeDirectories_grows (h : disk.IsRooted) {path : Bytes}
    (habsolute : Pathname.isAbsolute path = true) :
    GrowsAt (fun location => ∃ front, front <+: Pathname.names path ∧
      Pathname.follow [] front = location) disk (left (makeDirectories path disk)) := by
  have hself (location : Location) (hl : location = Pathname.follow [] (Pathname.names path)) :
      ∃ front, front <+: Pathname.names path ∧ Pathname.follow [] front = location :=
    ⟨_, List.prefix_rfl, hl.symm⟩
  have hfirst := (makeDirectory_grows h habsolute).mono hself
  rw [makeDirectories]
  split
  · exact .refl h
  · split
    · rename_i made hm
      rwa [hm] at hfirst
    · split
      · exact .refl h
      · rename_i above habove
        have := Pathname.length_parent_lt habove
        obtain ⟨habsoluteAbove, hprefix⟩ := Pathname.parent?_names habove habsolute
        have hfurther (location : Location) : (∃ front, front <+: Pathname.names above ∧
            Pathname.follow [] front = location) → ∃ front, front <+: Pathname.names path ∧
              Pathname.follow [] front = location := by
          rintro ⟨front, hf, he⟩
          exact ⟨front, (hf.trans hprefix).trans (List.dropLast_prefix _), he⟩
        -- what is made above is on the way to the path too, and the last step makes the path itself
        have hready := (makeDirectories_grows h habsoluteAbove).mono hfurther
        dsimp only
        split
        · rename_i hm
          rwa [hm] at hready
        · rename_i ready hm
          rw [hm] at hready
          change GrowsAt _ disk ready at hready
          have hlast := hready.trans ((makeDirectory_grows hready.rooted habsolute).mono hself)
          split
          · rename_i made hm
            rwa [hm] at hlast
          · split
            · exact hready
            · exact hready
    · split
      · exact .refl h
      · exact .refl h
termination_by path.length

/-! ## Copying a file -/

namespace Rewrites
variable {old new : Disk} {number mode : Nat} {node before : Node} {data : Bytes}

theorem congr {other : Disk} (h : old.Rewrites number node new) (hn : other.nodes = new.nodes)
    (hc : other.cwd = new.cwd) : old.Rewrites number node other :=
  ⟨h.wasFile, h.isFile, hn ▸ h.nodes, hn ▸ h.size, hc.trans h.working⟩

theorem of_setNode (hb : old.nodes[number]? = some before) (hf : before.isFile)
    (hn : node.isFile) : old.Rewrites number node (old.setNode number node) := by
  have hlt := (Array.getElem?_eq_some_iff.mp hb).1
  refine ⟨⟨before, hb, hf⟩, hn, fun k => ?_, ?_, rfl⟩
  · rw [getElem?_setNode]
    by_cases hk : k = number
    · rw [if_pos hk, if_pos ⟨hk, hk ▸ hlt⟩]
    · rw [if_neg hk, if_neg fun hc => hk hc.1]
  · exact Array.size_setIfInBounds

theorem of_setData (hb : old.nodes[number]? = some before) (hf : before.isFile) (data : Bytes) :
    ∃ mode, old.Rewrites number (.file data mode) (old.setData number data) := by
  cases before with
  | file contents mode =>
    rw [setData, hb]
    exact ⟨mode, (of_setNode hb hf rfl).congr rfl rfl⟩
  | program name mode =>
    rw [setData, hb]
    exact ⟨mode, (of_setNode hb hf rfl).congr rfl rfl⟩
  | _ => cases hf

theorem now (h : old.Rewrites number node new) : new.nodes[number]? = some node := by
  rw [h.nodes, if_pos rfl]

theorem setData (h : old.Rewrites number (.file data mode) new) (other : Bytes) :
    old.Rewrites number (.file other mode) (new.setData number other) := by
  rw [Disk.setData, h.now]
  exact (h.trans (of_setNode h.now rfl rfl)).congr rfl rfl

theorem setMode (h : old.Rewrites number (.file data mode) new) (other : Nat) :
    old.Rewrites number (.file data other) (new.setMode number other) := by
  rw [Disk.setMode, h.now]
  exact h.trans (of_setNode h.now rfl rfl)

/-- An emptied file becomes a copy of a file. A copy of itself it stays empty. -/
theorem copyData (h : old.Rewrites number (.file [] mode) new) {source : Nat} {node : Node}
    (hs : old.nodes[source]? = some node) {held : Bytes} (hd : node.data? = some held) :
    ∃ copied, old.Rewrites number copied (new.copyData source number) ∧
      copied.data? = some (if source = number then [] else held) := by
  by_cases hself : source = number
  · refine ⟨.file [] mode, ?_, by rw [if_pos hself]; rfl⟩
    rw [Disk.copyData, hself, h.now]
    exact h.setData []
  · have hkept : new.nodes[source]? = some node := by rw [h.nodes, if_neg hself, hs]
    rw [if_neg hself]
    cases node with
    | file contents rights =>
      obtain rfl := Option.some.inj hd
      refine ⟨.file contents mode, ?_, rfl⟩
      rw [Disk.copyData, hkept, h.now]
      exact h.setData contents
    | program name rights =>
      refine ⟨.program name mode, ?_, hd⟩
      rw [Disk.copyData, hkept, h.now]
      exact (h.trans (of_setNode h.now rfl rfl)).congr rfl rfl
    | directory parent entries => cases hd
    | link target => cases hd
    | device device => cases hd
    | removed parent => cases hd

end Rewrites

theorem openFile_old {path : Bytes} {number : Nat} {node : Node}
    (hslash : Pathname.endsInSlash path = false) (hl : disk.lookup path = .ok (number, node))
    (mode : Nat) : openFile path mode disk =
      if node.isDirectory then .error .isADirectory disk else .ok number disk := by
  have hn := lookup_node hl
  unfold lookup look at hl
  rw [strictNames_eq hslash] at hl
  unfold openFile
  rw [hslash]
  dsimp only
  rw [if_neg Bool.false_ne_true]
  cases hr : disk.resolve true path (Pathname.names path) with
  | error cause => rw [hr] at hl; cases hl
  | ok place =>
    rw [hr] at hl
    dsimp only [bind, Except.bind] at hl
    dsimp only
    rw [if_neg Bool.false_ne_true]
    cases hplace : place.node with
    | none => rw [hplace] at hl; cases hl
    | some found =>
      rw [hplace] at hl
      dsimp only at hl ⊢
      split at hl
      · cases hl
        rw [hn, Option.any_some]
      · cases hl

theorem openFile_slash {path : Bytes} (hslash : Pathname.endsInSlash path = true) (mode : Nat) :
    ∃ cause, openFile path mode disk = .error cause disk := by
  unfold openFile
  rw [hslash]
  dsimp only
  rw [if_pos rfl]
  cases disk.resolve true path ((Pathname.names path).dropLast ++ [Pathname.here]) with
  | error cause => exact ⟨cause, rfl⟩
  | ok place => exact ⟨.isADirectory, rfl⟩

/-- A rooted tree becomes another one by the data that one location gets. -/
structure CopiesTo (target : Location) (data : Bytes) (old new : Disk) : Prop where
  rooted : new.IsRooted
  cwd : new.cwdLocation? = old.cwdLocation?
  files : ∀ location, new.fileAt? location =
    if location = target then some data else old.fileAt? location
  directories : ∀ location, new.HasDirectory location ↔ old.HasDirectory location

theorem Adds.copiesTo {new : Disk} {place : Place} {node : Node} {data : Bytes}
    (hadds : disk.Adds place node new) (h : disk.IsRooted) (hname : Pathname.IsName place.name)
    (hdata : node.data? = some data) {above : Location}
    (ha : disk.numberAt? root above = some place.directory) :
    CopiesTo (above ++ [place.name]) data disk new := by
  have hfile : node.isFile := Node.isFile_of_data? hdata
  have hbare : node.IsBare place.directory := .inl hfile
  refine ⟨hadds.isRooted h hname hbare, hadds.cwdLocation?_eq h, fun location => ?_,
    fun location => ?_⟩
  · rw [hadds.fileAt?_rooted h hname hbare ha, hdata]
  · rw [hadds.hasDirectory_iff h hname hbare ha, (Node.isFile_facts hfile).1]
    simp

theorem Rewrites.copiesTo {new : Disk} {number : Nat} {node : Node} {data : Bytes}
    (hrewrites : disk.Rewrites number node new) (h : disk.IsRooted)
    (hdata : node.data? = some data) {target : Location}
    (ht : disk.numberAt? root target = some number) : CopiesTo target data disk new := by
  refine ⟨hrewrites.isRooted h, hrewrites.cwdLocation?_eq h, fun location => ?_,
    fun location => hrewrites.hasDirectory_iff⟩
  rw [hrewrites.fileAt?_eq h ht, hdata]

/-- How a copy ends: the target has the data of the source, or nothing was done. Copied onto itself,
a file ends up empty. -/
def IsCopy (source target : Location) (old : Disk) : EStateM.Result IoError Disk Unit → Prop
  | .ok _ new => ∃ data, old.fileAt? source = some data ∧
      CopiesTo target (if source = target then [] else data) old new
  | .error _ new => new = old

section Copy
variable {source target : Bytes}

theorem copy_unopened (source : Bytes)
    (h : ∀ mode, ∃ cause, openFile target mode disk = .error cause disk) :
    ∃ cause, copy source target disk = .error cause disk := by
  unfold copy
  cases disk.lookup source with
  | error cause => exact ⟨cause, rfl⟩
  | ok found =>
    dsimp only
    cases found.2.mode? with
    | none => exact ⟨.notAFile, rfl⟩
    | some mode =>
      obtain ⟨cause, hopen⟩ := h mode
      dsimp only
      rw [hopen]
      exact ⟨cause, rfl⟩

variable (h : disk.IsRooted) (hs : Pathname.isAbsolute source = true)
  (ht : Pathname.isAbsolute target = true) (hslash : Pathname.endsInSlash target = false)
include h hs ht hslash

theorem copy_missing (hmissing : disk.pathExists target = false) :
    IsCopy (Pathname.follow [] (Pathname.names source)) (Pathname.follow [] (Pathname.names target))
      disk (copy source target disk) := by
  rcases copy_new h.tree source hslash hmissing with ⟨cause, hfails⟩ | hcopied
  · rw [hfails]
    rfl
  · obtain ⟨place, node, data, new, hcopy, hr, hnone, hadds, hdata, hread⟩ := hcopied
    rw [strictNames_eq hslash] at hr
    obtain ⟨hname, above, ha, he⟩ := h.adds_rooted ht hr hnone
    have hfound := h.fileAt?_of_read hs hread
    -- there is a file at the source and there was none at the target
    have hother : Pathname.follow [] (Pathname.names source) ≠
        Pathname.follow [] (Pathname.names target) := by
      intro hsame
      have hbare : node.IsBare place.directory := .inl (Node.isFile_of_data? hdata)
      have hnew := (hadds.numberAt?_added h hname hbare ha).mpr rfl
      rw [hsame, he, hadds.fileAt?_before h.tree hnew] at hfound
      cases hfound
    rw [hcopy]
    refine ⟨data, hfound, ?_⟩
    rw [if_neg hother, he]
    exact hadds.copiesTo h hname hdata ha

theorem copy_found {other : Nat} {before : Node} (hl : disk.lookup target = .ok (other, before)) :
    IsCopy (Pathname.follow [] (Pathname.names source)) (Pathname.follow [] (Pathname.names target))
      disk (copy source target disk) := by
  obtain ⟨hother, hb⟩ := h.lookup_found ht hl
  unfold copy
  cases hls : disk.lookup source with
  | error cause => rfl
  | ok found =>
    obtain ⟨number, node⟩ := found
    obtain ⟨hnumber, hn⟩ := h.lookup_found hs hls
    dsimp only
    cases hm : node.mode? with
    | none => rfl
    | some mode =>
      obtain ⟨data, hdata, -⟩ := mode?_data? hm
      dsimp only
      rw [openFile_old hslash hl]
      cases hd : before.isDirectory with
      | true => rfl
      | false =>
        have hf := h.isFile_of_not_directory hb hd
        have hdevice : disk.nodes[other]? ≠ some (.device .full) := by
          rw [hb]
          rintro ⟨⟩
          cases hf
        obtain ⟨rights, hemptied⟩ := Rewrites.of_setData hb hf []
        obtain ⟨copied, hcopied, hheld⟩ := (hemptied.setMode mode).copyData hn hdata
        -- two paths to one number come to one location
        have hsame : number = other ↔ Pathname.follow [] (Pathname.names source) =
            Pathname.follow [] (Pathname.names target) := by
          constructor
          · rintro rfl
            exact h.location_unique hnumber hother
          · intro he
            rw [he, hother] at hnumber
            exact (Option.some.inj hnumber).symm
        have hread : disk.fileAt? (Pathname.follow [] (Pathname.names source)) = some data := by
          rw [fileAt?, hnumber, Option.bind_some, hn, Option.bind_some, hdata]
        have hcopies := hcopied.copiesTo h hheld hother
        rw [if_congr hsame rfl rfl] at hcopies
        rw [if_neg Bool.false_ne_true]
        dsimp only
        rw [decide_eq_false hdevice, Bool.false_and, if_neg Bool.false_ne_true]
        exact ⟨data, hread, hcopies⟩

omit hslash in
/-- **A copy gives one location the data of another one, or does nothing.** -/
theorem copy_rooted :
    IsCopy (Pathname.follow [] (Pathname.names source)) (Pathname.follow [] (Pathname.names target))
      disk (copy source target disk) := by
  cases hslash : Pathname.endsInSlash target with
  | true =>
    obtain ⟨cause, hfails⟩ : ∃ cause, copy source target disk = .error cause disk :=
      copy_unopened source (openFile_slash hslash)
    rw [hfails]
    rfl
  | false =>
    cases hexists : disk.pathExists target with
    | false => exact copy_missing h hs ht hslash hexists
    | true =>
      rw [pathExists, node?] at hexists
      cases hl : disk.lookup target with
      | error cause => rw [hl] at hexists; cases hexists
      | ok found => exact copy_found h hs ht hslash hl

end Copy

end FirmwareBuild.Disk
