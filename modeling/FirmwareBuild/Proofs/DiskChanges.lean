import FirmwareBuild.Proofs.DiskPaths

/-! # Making directories and copying files

Directories are made where there was nothing, so all files stay what they are. A
copy to a path where nothing exists either changes nothing or adds one file that
the path leads to, with what the source holds. -/

namespace FirmwareBuild.Disk

/-- The disk that is left, whether a change succeeded or not. -/
def left {α : Type} : EStateM.Result IoError Disk α → Disk
  | .ok _ disk => disk
  | .error _ disk => disk

structure SameFiles (old new : Disk) : Prop where
  tree : new.IsTree
  files : ∀ location, new.fileAt? location = old.fileAt? location

theorem SameFiles.refl {disk : Disk} (h : disk.IsTree) : disk.SameFiles disk := ⟨h, fun _ => rfl⟩

theorem SameFiles.trans {a b c : Disk} (hab : a.SameFiles b) (hbc : b.SameFiles c) :
    a.SameFiles c :=
  ⟨hbc.tree, fun location => (hbc.files location).trans (hab.files location)⟩

/-- One more empty directory is no file. -/
theorem Adds.sameFiles {old new : Disk} {place : Place}
    (h : old.Adds place (.directory place.directory []) new) (ht : old.IsTree) :
    old.SameFiles new := by
  refine ⟨h.isTree ht rfl ?_, fun location => ?_⟩
  · intro number hm
    obtain rfl := List.mem_singleton.mp hm
    exact h.directory_lt
  · rw [h.fileAt?_eq ht rfl]
    split
    · rename_i hn
      exact (h.fileAt?_before ht hn).symm
    · rfl

theorem makeDirectory_sameFiles {disk : Disk} (ht : disk.IsTree) (path : Bytes) :
    disk.SameFiles (left (makeDirectory path disk)) := by
  unfold makeDirectory
  cases hl : disk.locate false path with
  | error cause => exact .refl ht
  | ok place =>
    dsimp only
    cases hn : place.node with
    | some number => exact .refl ht
    | none => exact (addNode_adds (resolve_free ht hl hn) _).sameFiles ht

/-- Making a directory and those above it touches no file, however far it gets. -/
theorem makeDirectories_sameFiles {disk : Disk} (ht : disk.IsTree) (path : Bytes) :
    disk.SameFiles (left (makeDirectories path disk)) := by
  have hfirst := makeDirectory_sameFiles ht path
  rw [makeDirectories]
  split
  · exact .refl ht
  · split
    · rename_i made hm
      rwa [hm] at hfirst
    · split
      · exact .refl ht
      · rename_i above habove
        have := Pathname.length_parent_lt habove
        have hready := makeDirectories_sameFiles ht above
        dsimp only
        split
        · rename_i hm
          rwa [hm] at hready
        · rename_i ready hm
          rw [hm] at hready
          change disk.SameFiles ready at hready
          have hlast := hready.trans (makeDirectory_sameFiles hready.tree path)
          split
          · rename_i made hm
            rwa [hm] at hlast
          · split
            · exact hready
            · exact hready
    · split
      · exact .refl ht
      · exact .refl ht
termination_by path.length

/-! ## Copies -/

section Copies
variable {old new : Disk} {place : Place} {mode : Nat} {data : Bytes}

theorem Adds.setData (h : old.Adds place (.file data mode) new) (other : Bytes) :
    old.Adds place (.file other mode) (new.setData old.nodes.size other) := by
  rw [Disk.setData, h.added]
  exact (h.setNode _).congr rfl rfl

theorem Adds.setMode (h : old.Adds place (.file data mode) new) (other : Nat) :
    old.Adds place (.file data other) (new.setMode old.nodes.size other) := by
  rw [Disk.setMode, h.added]
  exact h.setNode _

/-- A new file becomes a copy of an old one. -/
theorem Adds.copyData (h : old.Adds place (.file data mode) new) {number : Nat} {source : Node}
    (hs : old.nodes[number]? = some source) {held : Bytes} (hd : source.data? = some held) :
    ∃ node, old.Adds place node (new.copyData number old.nodes.size) ∧ node.data? = some held := by
  have hlt := (Array.getElem?_eq_some_iff.mp hs).1
  have hother : number ≠ place.directory := by
    rintro rfl
    obtain ⟨parent, entries, hfree, -⟩ := h.free
    cases hs.symm.trans hfree
    cases hd
  have hkept : new.nodes[number]? = some source :=
    (h.others number hother (Nat.ne_of_lt hlt)).trans hs
  cases source with
  | file contents rights =>
    obtain rfl := Option.some.inj hd
    refine ⟨.file contents mode, ?_, rfl⟩
    rw [Disk.copyData, hkept, h.added]
    exact h.setData contents
  | program name rights =>
    refine ⟨.program name mode, ?_, hd⟩
    rw [Disk.copyData, hkept, h.added]
    exact (h.setNode _).congr rfl rfl
  | directory parent entries => cases hd
  | link target => cases hd
  | device device => cases hd
  | removed parent => cases hd

end Copies

theorem strictNames_eq {path : Bytes} (h : Pathname.endsInSlash path = false) :
    strictNames path = Pathname.names path := by
  rw [strictNames, h]
  exact List.append_nil _

/-- A file is opened where there was nothing by making it. -/
theorem openFile_new {disk : Disk} (ht : disk.IsTree) {path : Bytes}
    (hslash : Pathname.endsInSlash path = false) (hnew : disk.pathExists path = false)
    (mode : Nat) :
    (∃ cause, openFile path mode disk = .error cause disk) ∨
    ∃ place opened, openFile path mode disk = .ok disk.nodes.size opened ∧
      disk.resolve true path (strictNames path) = .ok place ∧ place.node = none ∧
      disk.Adds place (.file [] mode) opened := by
  unfold openFile
  rw [hslash]
  dsimp only
  rw [if_neg Bool.false_ne_true, ← strictNames_eq hslash]
  cases hr : disk.resolve true path (strictNames path) with
  | error cause => exact .inl ⟨cause, rfl⟩
  | ok place =>
    have hnone := pathExists_eq_false ht hnew hr
    dsimp only
    rw [if_neg Bool.false_ne_true, hnone]
    exact .inr ⟨place, _, rfl, rfl, hnone, addNode_adds (resolve_free ht hr hnone) _⟩

theorem mode?_data? {node : Node} {mode : Nat} (h : node.mode? = some mode) :
    ∃ data, node.data? = some data ∧ node.isDirectory = false := by
  cases node with
  | file data rights => exact ⟨data, rfl, rfl⟩
  | program name rights => exact ⟨nativeMark, rfl, rfl⟩
  | _ => cases h

theorem lookup_node {disk : Disk} {path : Bytes} {number : Nat} {node : Node}
    (h : disk.lookup path = .ok (number, node)) : disk.nodes[number]? = some node := by
  unfold lookup look at h
  cases hr : disk.resolve true path (strictNames path) with
  | error cause => rw [hr] at h; cases h
  | ok place =>
    rw [hr] at h
    dsimp only [bind, Except.bind] at h
    split at h
    · cases h
    · split at h
      · rename_i hn
        cases h
        exact hn
      · cases h

/-- **A copy to where nothing is adds one file or does nothing.** The file holds what the source
holds. -/
theorem copy_new {disk : Disk} (ht : disk.IsTree) (source : Bytes) {target : Bytes}
    (hslash : Pathname.endsInSlash target = false) (hnew : disk.pathExists target = false) :
    (∃ cause, copy source target disk = .error cause disk) ∨
    ∃ place node data new, copy source target disk = .ok () new ∧
      disk.resolve true target (strictNames target) = .ok place ∧ place.node = none ∧
      disk.Adds place node new ∧ node.data? = some data ∧ disk.read source = .ok data := by
  unfold copy
  cases hs : disk.lookup source with
  | error cause => exact .inl ⟨cause, rfl⟩
  | ok found =>
    obtain ⟨number, node⟩ := found
    dsimp only
    cases hm : node.mode? with
    | none => exact .inl ⟨.notAFile, rfl⟩
    | some mode =>
      obtain ⟨data, hdata, hfile⟩ := mode?_data? hm
      dsimp only
      rcases openFile_new ht hslash hnew mode with
        ⟨cause, ho⟩ | ⟨place, opened, ho, hr, hnone, hadds⟩
      · rw [ho]
        exact .inl ⟨cause, rfl⟩
      · have hemptied := (hadds.setData []).setMode mode
        obtain ⟨copied, hcopied, hheld⟩ := hemptied.copyData (lookup_node hs) hdata
        refine .inr ⟨place, copied, data, _, ?_, hr, hnone, hcopied, hheld, ?_⟩
        · rw [ho]
          dsimp only
          rw [hadds.added]
          rfl
        · rw [read, hs]
          dsimp only
          rw [hfile, hdata]
          rfl

end FirmwareBuild.Disk
