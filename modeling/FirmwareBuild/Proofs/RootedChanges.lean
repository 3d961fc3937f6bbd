import FirmwareBuild.Proofs.DiskChanges
import FirmwareBuild.Proofs.RootedTrees

/-! # Changes of rooted trees

Where every directory keeps its names, in their order, the working directory has the
location that it had. Both a new node and other data in a file keep them, and lead
from a rooted tree to a rooted tree; as a node has one location, they change the
files at one location only (`Adds.fileAt?_rooted`,
`Rewrites.fileAt?_eq`). -/

namespace FirmwareBuild

theorem Text.putNamed_of_lookup_eq_none {name : Bytes} {value : Nat} :
    ∀ {entries : List (Bytes × Nat)}, entries.lookup name = none →
      putNamed name value entries = entries ++ [(name, value)]
  | [], _ => rfl
  | (n, old) :: rest, h => by
    rw [List.lookup_cons] at h
    by_cases hn : name = n
    · rw [beq_iff_eq.mpr hn] at h
      cases h
    · rw [beq_eq_false_iff_ne.mpr hn] at h
      rw [putNamed, if_neg (Ne.symm hn), putNamed_of_lookup_eq_none h, List.cons_append]

/-- A file, or an empty directory in another one. -/
def Node.IsBare (directory : Nat) (node : Node) : Prop :=
  node.isFile ∨ node = .directory directory []

namespace Node
variable {directory : Nat} {node : Node}

theorem IsBare.entries_eq_nil (h : node.IsBare directory) : node.entries = [] := by
  rcases h with h | rfl
  · cases node <;> first | rfl | cases h
  · rfl

theorem IsBare.isLink (h : node.IsBare directory) : node.isLink = false := by
  rcases h with h | rfl
  · cases node <;> first | rfl | cases h
  · rfl

theorem IsBare.mentioned (h : node.IsBare directory) : ∀ number ∈ node.mentioned,
    number = directory := by
  rcases h with h | rfl
  · cases node <;> first | cases h; done | exact nofun
  · intro number hm
    exact List.mem_singleton.mp hm

theorem IsBare.parent_eq (h : node.IsBare directory) : ∀ parent ∈ node.above?,
    parent = directory := by
  rcases h with h | rfl
  · cases node <;> first | cases h; done | exact nofun
  · intro parent hp
    exact (Option.some.inj hp).symm

theorem IsBare.plain (h : node.IsBare directory) : node.isFile ∨ node.above?.isSome := by
  rcases h with h | rfl
  · exact .inl h
  · exact .inr rfl

theorem isFile_of_data? {data : Bytes} (h : node.data? = some data) : node.isFile := by
  cases node <;> first | rfl | cases h

theorem isFile_facts (h : node.isFile) :
    node.above? = none ∧ node.entries = [] ∧ node.mentioned = [] ∧ node.isLink = false ∧
      node.isDirectory = false ∧ ∃ data, node.data? = some data := by
  cases node with
  | file data mode => exact ⟨rfl, rfl, rfl, rfl, rfl, data, rfl⟩
  | program name mode => exact ⟨rfl, rfl, rfl, rfl, rfl, nativeMark, rfl⟩
  | _ => cases h

end Node

namespace Disk

/-! ## Extended directories -/

/-- Every directory holds what it held, perhaps with more names behind it. -/
def KeepsNames (old new : Disk) : Prop :=
  ∀ (number parent : Nat) (entries : List (Bytes × Nat)),
    old.nodes[number]? = some (Node.directory parent entries) →
      ∃ more, new.nodes[number]? = some (Node.directory parent (entries ++ more))

section KeepsNames
variable {disk old new : Disk}

theorem locationFrom_more {steps more number : Nat} {location : Location} (hle : steps ≤ more)
    (h : disk.locationFrom steps number = some location) :
    disk.locationFrom more number = some location := by
  induction steps generalizing more number location with
  | zero => cases h
  | succ steps ih =>
    cases more with
    | zero => omega
    | succ more =>
      rw [locationFrom] at h ⊢
      split at h
      · rename_i hroot
        rw [if_pos hroot]
        exact h
      · rename_i hroot
        rw [if_neg hroot]
        cases hn : disk.nodes[number]? with
        | none => rw [hn] at h; cases h
        | some node =>
          rw [hn] at h
          cases node with
          | directory parent entries =>
            obtain ⟨above, ha, h⟩ := Option.bind_eq_some_iff.mp h
            dsimp only
            rw [ih (Nat.le_of_succ_le_succ hle) ha]
            exact h
          | _ => cases h

theorem KeepsNames.locationFrom (he : old.KeepsNames new) {steps number : Nat} {location : Location}
    (h : old.locationFrom steps number = some location) :
    new.locationFrom steps number = some location := by
  induction steps generalizing number location with
  | zero => cases h
  | succ steps ih =>
    rw [Disk.locationFrom] at h ⊢
    split at h
    · rename_i hroot
      rw [if_pos hroot]
      exact h
    · rename_i hroot
      rw [if_neg hroot]
      cases hn : old.nodes[number]? with
      | none => rw [hn] at h; cases h
      | some node =>
        rw [hn] at h
        cases node with
        | directory parent entries =>
          obtain ⟨above, ha, h⟩ := Option.bind_eq_some_iff.mp h
          obtain ⟨holder, hh, h⟩ := Option.bind_eq_some_iff.mp h
          obtain ⟨entry, hf, hlast⟩ := Option.bind_eq_some_iff.mp h
          obtain ⟨more, hnew⟩ := he number parent entries hn
          -- the directory above holds the name, so it holds it still, and nothing in front of it
          cases holder with
          | directory grand names =>
            obtain ⟨behind, hholder⟩ := he parent grand names hh
            have hfound : (names ++ behind).find? (fun entry => entry.2 = number) = some entry := by
              rw [List.find?_append]
              exact Option.or_eq_some_iff.mpr (.inl hf)
            rw [hnew]
            dsimp only
            refine Option.bind_eq_some_iff.mpr ⟨above, ih ha, ?_⟩
            refine Option.bind_eq_some_iff.mpr ⟨_, hholder, ?_⟩
            exact Option.bind_eq_some_iff.mpr ⟨entry, hfound, hlast⟩
          | _ => cases hf
        | _ => cases h

theorem KeepsNames.cwdLocation? (he : old.KeepsNames new) (hsize : old.nodes.size ≤ new.nodes.size)
    (hcwd : new.cwd = old.cwd) (h : old.cwdLocation?.isSome) :
    new.cwdLocation? = old.cwdLocation? := by
  obtain ⟨location, hl⟩ := Option.isSome_iff_exists.mp h
  rw [hl]
  rw [Disk.cwdLocation?] at hl ⊢
  rw [hcwd]
  exact locationFrom_more hsize (he.locationFrom hl)

end KeepsNames

/-! ## One more node -/

namespace Adds
variable {old new : Disk} {place : Place} {node : Node}

theorem keepsNames (h : old.Adds place node new) : old.KeepsNames new := by
  intro number parent entries hn
  have hlt := (Array.getElem?_eq_some_iff.mp hn).1
  by_cases hd : number = place.directory
  · obtain ⟨parent', entries', hold, hfree, hnew⟩ := h.named
    rw [← hd] at hold hnew
    cases hold.symm.trans hn
    rw [Text.putNamed_of_lookup_eq_none hfree] at hnew
    exact ⟨_, hnew⟩
  · refine ⟨[], ?_⟩
    rw [h.others number hd (Nat.ne_of_lt hlt), List.append_nil]
    exact hn

theorem cwdLocation?_eq (h : old.Adds place node new) (hr : old.IsRooted) :
    new.cwdLocation? = old.cwdLocation? :=
  h.keepsNames.cwdLocation? (by rw [h.size]; omega) h.working hr.placed

theorem above?_of_lt (h : old.Adds place node new) {number : Nat} (hlt : number < old.nodes.size) :
    new.above? number = old.above? number := by
  by_cases hd : number = place.directory
  · obtain ⟨parent, entries, hold, -, hnew⟩ := h.named
    rw [Disk.above?, Disk.above?, hd, hold, hnew]
    rfl
  · rw [Disk.above?, Disk.above?, h.others number hd (Nat.ne_of_lt hlt)]

theorem above?_added (h : old.Adds place node new) :
    new.above? old.nodes.size = node.above? := by
  rw [Disk.above?, h.added]
  rfl

theorem mem_namings (h : old.Adds place node new) (hentries : node.entries = []) {naming : Naming}
    (hm : naming ∈ new.namings) :
    naming ∈ old.namings ∨ naming = ⟨place.directory, place.name, old.nodes.size⟩ := by
  obtain ⟨holder, hn, he⟩ := Disk.mem_namings.mp hm
  by_cases hd : naming.directory = place.directory
  · obtain ⟨parent, entries, hold, hfree, hnew⟩ := h.named
    rw [← hd] at hnew hold
    obtain rfl := Option.some.inj (hnew.symm.trans hn)
    rw [Text.putNamed_of_lookup_eq_none hfree] at he
    rcases List.mem_append.mp he with he | he
    · exact .inl (Disk.mem_namings.mpr ⟨_, hold, he⟩)
    · obtain ⟨hname, hnumber⟩ := Prod.mk.inj (List.mem_singleton.mp he)
      right
      obtain ⟨directory, name, number⟩ := naming
      simp only at hd hname hnumber
      rw [hd, hname, hnumber]
  · by_cases hs : naming.directory = old.nodes.size
    · rw [hs, h.added] at hn
      obtain rfl := Option.some.inj hn
      rw [hentries] at he
      cases he
    · rw [h.others _ hd hs] at hn
      exact .inl (Disk.mem_namings.mpr ⟨holder, hn, he⟩)

theorem isRooted (h : old.Adds place node new) (hr : old.IsRooted)
    (hname : Pathname.IsName place.name) (hbare : node.IsBare place.directory) : new.IsRooted := by
  have hlt {naming : Naming} (hm : naming ∈ old.namings) : naming.number < old.nodes.size := by
    obtain ⟨holder, hn, he⟩ := Disk.mem_namings.mp hm
    refine hr.tree.mentioned_lt hn ?_
    cases holder with
    | directory parent entries =>
      exact List.mem_cons_of_mem _ (List.mem_map.mpr ⟨_, he, rfl⟩)
    | _ => cases he
  have hnew {naming : Naming} (hm : naming ∈ new.namings) :=
    h.mem_namings hbare.entries_eq_nil hm
  have htree : new.IsTree := by
    refine h.isTree hr.tree hbare.isLink fun number hm => ?_
    rw [hbare.mentioned number hm]
    exact h.directory_lt
  refine ⟨htree, fun other ho => ?_, ?_, fun a ha b hb hab => ?_, fun a ha => ?_,
    fun a ha parent hp => ?_, fun a ha => ?_, ?_⟩
  · obtain ⟨number, hn⟩ := Array.mem_iff_getElem?.mp ho
    by_cases hd : number = place.directory
    · obtain ⟨parent, entries, -, -, hnewNode⟩ := h.named
      rw [hd, hnewNode] at hn
      obtain rfl := Option.some.inj hn
      exact .inr rfl
    · by_cases hs : number = old.nodes.size
      · rw [hs, h.added] at hn
        obtain rfl := Option.some.inj hn
        exact hbare.plain
      · rw [h.others number hd hs] at hn
        exact hr.plain other (Array.mem_of_getElem? hn)
  · rw [h.above?_of_lt hr.tree.root_lt]
    exact hr.top
  · -- an old number is no new one, so that both names are old or both are the new one
    rcases hnew ha with ha | rfl
    · rcases hnew hb with hb | rfl
      · exact hr.single a ha b hb hab
      · exact absurd hab (Nat.ne_of_lt (hlt ha))
    · rcases hnew hb with hb | rfl
      · exact absurd hab.symm (Nat.ne_of_lt (hlt hb))
      · rfl
  · rcases hnew ha with ha | rfl
    · exact hr.notRoot a ha
    · exact Nat.ne_of_gt hr.tree.root_lt
  · rcases hnew ha with ha | rfl
    · rw [h.above?_of_lt (hlt ha)] at hp
      exact hr.parents a ha parent hp
    · rw [h.above?_added] at hp
      exact hbare.parent_eq parent hp
  · rcases hnew ha with ha | rfl
    · exact hr.named a ha
    · exact hname
  · rw [h.cwdLocation?_eq hr]
    exact hr.placed

section Locations
variable (h : old.Adds place node new) (hr : old.IsRooted) (hname : Pathname.IsName place.name)
  (hbare : node.IsBare place.directory) {above : Location}
  (ha : old.numberAt? root above = some place.directory)
include h hr hname hbare ha

theorem numberAt?_added {location : Location} :
    new.numberAt? root location = some old.nodes.size ↔ location = above ++ [place.name] := by
  have hchild : new.child? place.directory place.name = some old.nodes.size := by
    rw [h.child?_of_lt h.directory_lt, if_pos ⟨rfl, rfl⟩]
  have hat : new.numberAt? root (above ++ [place.name]) = some old.nodes.size :=
    numberAt?_concat_eq_some.mpr ⟨_, h.numberAt?_kept ha, hchild⟩
  constructor
  · intro hl
    exact (h.isRooted hr hname hbare).location_unique hl hat
  · rintro rfl
    exact hat

theorem fileAt?_rooted (location : Location) : new.fileAt? location =
    if location = above ++ [place.name] then node.data? else old.fileAt? location := by
  rw [h.fileAt?_eq hr.tree hbare.entries_eq_nil]
  exact if_congr (h.numberAt?_added hr hname hbare ha) rfl rfl

theorem hasDirectory_iff {location : Location} : new.HasDirectory location ↔
    old.HasDirectory location ∨ location = above ++ [place.name] ∧ node.above?.isSome := by
  constructor
  · rintro ⟨number, hl, hs⟩
    rcases h.numberAt?_grown hr.tree hbare.entries_eq_nil hr.tree.root_lt hl with rfl | hold
    · rw [h.above?_added] at hs
      exact .inr ⟨(h.numberAt?_added hr hname hbare ha).mp hl, hs⟩
    · rw [h.above?_of_lt (hr.tree.numberAt?_lt hr.tree.root_lt hold)] at hs
      exact .inl ⟨number, hold, hs⟩
  · rintro (⟨number, hl, hs⟩ | ⟨hl, hs⟩)
    · refine ⟨number, h.numberAt?_kept hl, ?_⟩
      rw [h.above?_of_lt (hr.tree.numberAt?_lt hr.tree.root_lt hl)]
      exact hs
    · refine ⟨_, (h.numberAt?_added hr hname hbare ha).mpr hl, ?_⟩
      rw [h.above?_added]
      exact hs

end Locations

end Adds

/-! ## Other data in a file -/

structure Rewrites (old : Disk) (number : Nat) (node : Node) (new : Disk) : Prop where
  wasFile : ∃ before, old.nodes[number]? = some before ∧ before.isFile
  isFile : node.isFile
  nodes : ∀ k, new.nodes[k]? = if k = number then some node else old.nodes[k]?
  size : new.nodes.size = old.nodes.size
  working : new.cwd = old.cwd

namespace Rewrites
variable {old new : Disk} {number : Nat} {node : Node}

theorem trans {last : Disk} {other : Node} (h : old.Rewrites number node new)
    (h' : new.Rewrites number other last) : old.Rewrites number other last := by
  refine ⟨h.wasFile, h'.isFile, fun k => ?_, h'.size.trans h.size, h'.working.trans h.working⟩
  rw [h'.nodes, h.nodes]
  split <;> rfl

/-- No name leads through a file, and so none leads elsewhere. -/
theorem shape (h : old.Rewrites number node new) (k : Nat) :
    (new.nodes[k]?).map Node.entries = (old.nodes[k]?).map Node.entries ∧
      new.above? k = old.above? k := by
  obtain ⟨before, hb, hf⟩ := h.wasFile
  obtain ⟨habove, hentries, -⟩ := Node.isFile_facts h.isFile
  obtain ⟨habove', hentries', -⟩ := Node.isFile_facts hf
  rw [Disk.above?, Disk.above?, h.nodes]
  split
  · rename_i hk
    rw [hk, hb, Option.map_some, Option.map_some, hentries, hentries', Option.bind_some,
      Option.bind_some, habove, habove']
    exact ⟨rfl, rfl⟩
  · exact ⟨rfl, rfl⟩

theorem keepsNames (h : old.Rewrites number node new) : old.KeepsNames new := by
  intro k parent entries hk
  refine ⟨[], ?_⟩
  rw [h.nodes, List.append_nil]
  split
  · rename_i he
    obtain ⟨before, hb, hf⟩ := h.wasFile
    rw [he, hb] at hk
    obtain rfl := Option.some.inj hk
    cases hf
  · exact hk

theorem cwdLocation?_eq (h : old.Rewrites number node new) (hr : old.IsRooted) :
    new.cwdLocation? = old.cwdLocation? :=
  h.keepsNames.cwdLocation? (Nat.le_of_eq h.size.symm) h.working hr.placed

theorem child?_eq (h : old.Rewrites number node new) (k : Nat) (name : Bytes) :
    new.child? k name = old.child? k name := by
  have hbind (disk : Disk) : disk.child? k name =
      ((disk.nodes[k]?).map Node.entries).bind fun entries => entries.lookup name := by
    rw [child?, Option.bind_map]
    rfl
  rw [hbind, hbind, (h.shape k).1]

theorem numberAt?_eq (h : old.Rewrites number node new) (start : Nat) (location : Location) :
    new.numberAt? start location = old.numberAt? start location := by
  induction location generalizing start with
  | nil => rfl
  | cons name rest ih =>
    rw [numberAt?, numberAt?, h.child?_eq]
    cases old.child? start name with
    | none => rfl
    | some child => exact ih child

theorem namings_eq (h : old.Rewrites number node new) : new.namings = old.namings := by
  rw [namings, namings, h.size]
  congr 1
  funext directory
  rw [(h.shape directory).1]

theorem isRooted (h : old.Rewrites number node new) (hr : old.IsRooted) : new.IsRooted := by
  have hnode {other : Node} (ho : other ∈ new.nodes) : other = node ∨ other ∈ old.nodes := by
    obtain ⟨k, hk⟩ := Array.mem_iff_getElem?.mp ho
    rw [h.nodes] at hk
    split at hk
    · exact .inl (Option.some.inj hk).symm
    · exact .inr (Array.mem_of_getElem? hk)
  obtain ⟨-, -, hmentioned, hlink, -⟩ := Node.isFile_facts h.isFile
  have htree : new.IsTree := by
    refine ⟨fun other ho => ?_, fun other ho k hk => ?_, ?_⟩
    · rcases hnode ho with rfl | ho
      · exact hlink
      · exact hr.tree.linkless other ho
    · rw [h.size]
      rcases hnode ho with rfl | ho
      · rw [hmentioned] at hk
        cases hk
      · exact hr.tree.closed other ho k hk
    · rw [h.working, h.size]
      exact hr.tree.working
  refine ⟨htree, fun other ho => ?_, ?_, ?_, ?_, fun a ha parent hp => ?_, ?_, ?_⟩
  · rcases hnode ho with rfl | ho
    · exact .inl h.isFile
    · exact hr.plain other ho
  · rw [(h.shape root).2]
    exact hr.top
  · rw [h.namings_eq]
    exact hr.single
  · rw [h.namings_eq]
    exact hr.notRoot
  · rw [h.namings_eq] at ha
    rw [(h.shape a.number).2] at hp
    exact hr.parents a ha parent hp
  · rw [h.namings_eq]
    exact hr.named
  · rw [h.cwdLocation?_eq hr]
    exact hr.placed

theorem fileAt?_eq (h : old.Rewrites number node new) (hr : old.IsRooted) {target : Location}
    (ht : old.numberAt? root target = some number) (location : Location) :
    new.fileAt? location = if location = target then node.data? else old.fileAt? location := by
  rw [fileAt?, h.numberAt?_eq]
  by_cases hl : location = target
  · rw [if_pos hl, hl, ht, Option.bind_some, h.nodes, if_pos rfl, Option.bind_some]
  · rw [if_neg hl, fileAt?]
    cases hn : old.numberAt? root location with
    | none => rfl
    | some k =>
      have hk : k ≠ number := by
        rintro rfl
        exact hl (hr.location_unique hn ht)
      rw [Option.bind_some, Option.bind_some, h.nodes, if_neg hk]

theorem hasDirectory_iff (h : old.Rewrites number node new) {location : Location} :
    new.HasDirectory location ↔ old.HasDirectory location := by
  unfold HasDirectory
  refine exists_congr fun k => ?_
  rw [h.numberAt?_eq, (h.shape k).2]

end Rewrites

end Disk

end FirmwareBuild
