import FirmwareBuild.Proofs.PathNames
import FirmwareBuild.Proofs.RootedChanges

/-! # File trees

A file tree is a rooted tree in which a directory has each name once and no
directory that was removed still has a name. It is known by what stands at its
locations, and one more node changes one of them (`Adds.entryAt?_eq`). The names of a
path lead through locations, from where it starts to its own. -/

namespace FirmwareBuild

namespace Pathname

/-- The locations that names lead through from a location, and the one that they lead to. -/
def way (location : Location) : List Bytes → List Location
  | [] => [location]
  | name :: rest => location :: way (stepTo location name) rest

section Way
variable {location : Location} {name : Bytes} {names : List Bytes}

theorem way_ne_nil : way location names ≠ [] := by
  cases names <;> exact List.cons_ne_nil _ _

theorem start_mem_way : location ∈ way location names := by
  cases names <;> exact List.mem_cons_self

theorem dropLast_way_cons :
    (way location (name :: names)).dropLast =
      location :: (way (stepTo location name) names).dropLast :=
  List.dropLast_cons_of_ne_nil way_ne_nil

theorem way_append (location : Location) (front back : List Bytes) :
    way location (front ++ back) =
      (way location front).dropLast ++ way (follow location front) back := by
  induction front generalizing location with
  | nil => rfl
  | cons name rest ih =>
    rw [dropLast_way_cons, List.cons_append, way, ih, List.cons_append]
    rfl

theorem way_eq (location : Location) (names : List Bytes) :
    way location names = (way location names).dropLast ++ [follow location names] := by
  have h := way_append location names []
  rwa [List.append_nil] at h

theorem way_concat : way location (names ++ [name]) =
    way location names ++ [stepTo (follow location names) name] := by
  have hlast : way (follow location names) [name] =
      [follow location names] ++ [stepTo (follow location names) name] := rfl
  rw [way_append, hlast, ← List.append_assoc, ← way_eq]

theorem follow_mem_way : follow location names ∈ way location names := by
  rw [way_eq]
  exact List.mem_append_right _ (List.mem_singleton_self _)

theorem dropLast_way_subset : ∀ l ∈ (way location names).dropLast, l ∈ way location names :=
  fun _ h => (List.dropLast_prefix _).subset h

@[simp] theorem stepTo_here : stepTo location here = location := if_pos rfl

@[simp] theorem stepTo_up : stepTo location up = location.dropLast := by
  rw [stepTo, if_neg (by decide), if_pos rfl]

theorem stepTo_of_ne (hhere : name ≠ here) (hup : name ≠ up) :
    stepTo location name = location ++ [name] := by
  rw [stepTo, if_neg hhere, if_neg hup]

/-- The name of the directory itself leads nowhere new. -/
theorem follow_filter (location : Location) (names : List Bytes) :
    follow location (names.filter (· ≠ here)) = follow location names := by
  induction names generalizing location with
  | nil => rfl
  | cons name rest ih =>
    by_cases hname : name = here
    · subst hname
      rw [List.filter_cons_of_neg (by simp), ih]
      change _ = follow (stepTo location here) rest
      rw [stepTo_here]
    · rw [List.filter_cons_of_pos (by simpa using hname)]
      exact ih (stepTo location name)

theorem mem_way_filter {l : Location} (location : Location) (names : List Bytes) :
    l ∈ way location (names.filter (· ≠ here)) ↔ l ∈ way location names := by
  induction names generalizing location with
  | nil => rfl
  | cons name rest ih =>
    by_cases hname : name = here
    · subst hname
      rw [List.filter_cons_of_neg (by simp), ih, way, stepTo_here, List.mem_cons,
        or_iff_right_of_imp]
      rintro rfl
      exact start_mem_way
    · rw [List.filter_cons_of_pos (by simpa using hname), way, way, List.mem_cons, List.mem_cons,
        ih]

end Way

end Pathname

namespace Disk

/-! ## What stands at a location -/

theorem entryOf_eq_directory {node : Node} : entryOf node = .directory ↔ node.above?.isSome := by
  cases node <;> simp [entryOf, Node.above?]

theorem entryAt?_eq_directory {disk : Disk} {location : Location} :
    disk.entryAt? location = some .directory ↔ disk.HasDirectory location := by
  unfold entryAt? HasDirectory above?
  simp only [Option.map_eq_some_iff, Option.bind_eq_some_iff, entryOf_eq_directory]
  constructor
  · rintro ⟨node, ⟨number, hl, hn⟩, ha⟩
    exact ⟨number, hl, by rwa [hn]⟩
  · rintro ⟨number, hl, hs⟩
    cases hn : disk.nodes[number]? with
    | none => rw [hn] at hs; cases hs
    | some node =>
      rw [hn] at hs
      exact ⟨node, ⟨number, hl, hn⟩, hs⟩

theorem entryAt?_isSome {disk : Disk} (h : disk.IsTree) {location : Location} :
    (disk.entryAt? location).isSome = (disk.numberAt? root location).isSome := by
  unfold entryAt?
  cases hl : disk.numberAt? root location with
  | none => rfl
  | some number =>
    rw [Option.bind_some, Array.getElem?_eq_getElem (h.numberAt?_lt h.root_lt hl)]
    rfl

def Entry.data? : Entry → Option Bytes
  | .file data _ => some data
  | .program _ _ => some nativeMark
  | _ => none

theorem fileAt?_eq_entryAt? (disk : Disk) (location : Location) :
    disk.fileAt? location = (disk.entryAt? location).bind Entry.data? := by
  unfold fileAt? entryAt?
  rw [Option.bind_map]
  congr 1
  funext node
  cases node <;> rfl

/-! ## File trees -/

def isRemoved : Node → Bool
  | .removed _ => true
  | _ => false

/-- A tree of files and directories, with the working directory in it. -/
structure IsFileTree (disk : Disk) : Prop extends disk.IsRooted where
  /-- A directory has a name once. -/
  distinct : ∀ a ∈ disk.namings, ∀ b ∈ disk.namings,
    a.directory = b.directory → a.name = b.name → a = b
  /-- What was removed has no name. -/
  standing : ∀ number ∈ root :: disk.namings.map Naming.number,
    (disk.nodes[number]?).any isRemoved = false

instance (disk : Disk) : Decidable disk.IsFileTree :=
  decidable_of_iff (disk.IsRooted ∧
      (∀ a ∈ disk.namings, ∀ b ∈ disk.namings,
        a.directory = b.directory → a.name = b.name → a = b) ∧
      ∀ number ∈ root :: disk.namings.map Naming.number,
        (disk.nodes[number]?).any isRemoved = false)
    ⟨fun ⟨h₁, h₂, h₃⟩ => ⟨h₁, h₂, h₃⟩, fun ⟨h₁, h₂, h₃⟩ => ⟨h₁, h₂, h₃⟩⟩

section Adds
variable {old new : Disk} {place : Place} {node : Node}

theorem Adds.isFileTree (h : old.Adds place node new) (hr : old.IsFileTree)
    (hname : Pathname.IsName place.name) (hbare : node.IsBare place.directory) :
    new.IsFileTree := by
  have hnew {naming : Naming} (hm : naming ∈ new.namings) :=
    h.mem_namings hbare.entries_eq_nil hm
  -- the new name was free, so that no old one is the same in the same directory
  have hfree {naming : Naming} (hm : naming ∈ old.namings)
      (hd : naming.directory = place.directory) (hn : naming.name = place.name) : False := by
    obtain ⟨holder, hh, he⟩ := Disk.mem_namings.mp hm
    obtain ⟨parent, entries, hold, hnone⟩ := h.free
    rw [hd, hold] at hh
    obtain rfl := Option.some.inj hh
    rw [hn] at he
    have hsome : (entries.lookup place.name).isSome :=
      List.lookup_isSome_iff.mpr ⟨_, he, beq_self_eq_true _⟩
    rw [hnone] at hsome
    cases hsome
  have hnode (number : Nat) (hlt : number < old.nodes.size) :
      (new.nodes[number]?).any isRemoved = (old.nodes[number]?).any isRemoved := by
    by_cases hd : number = place.directory
    · obtain ⟨parent, entries, hold, -, hnow⟩ := h.named
      rw [hd, hold, hnow]
      rfl
    · rw [h.others number hd (Nat.ne_of_lt hlt)]
  refine ⟨h.isRooted hr.toIsRooted hname hbare, fun a ha b hb hd hn => ?_, fun number hm => ?_⟩
  · rcases hnew ha with ha | rfl
    · rcases hnew hb with hb | rfl
      · exact hr.distinct a ha b hb hd hn
      · exact (hfree ha hd hn).elim
    · rcases hnew hb with hb | rfl
      · exact (hfree hb hd.symm hn.symm).elim
      · rfl
  · rcases List.mem_cons.mp hm with rfl | hm
    · rw [hnode _ hr.tree.root_lt]
      exact hr.standing _ List.mem_cons_self
    · obtain ⟨naming, hnaming, rfl⟩ := List.mem_map.mp hm
      rcases hnew hnaming with hold | rfl
      · have hstands := hr.standing _ (List.mem_cons_of_mem _ (List.mem_map_of_mem hold))
        obtain ⟨holder, hh, he⟩ := Disk.mem_namings.mp hold
        have hlt : naming.number < old.nodes.size := by
          refine hr.tree.mentioned_lt hh ?_
          cases holder with
          | directory parent entries => exact List.mem_cons_of_mem _ (List.mem_map_of_mem he)
          | _ => cases he
        rw [hnode _ hlt]
        exact hstands
      · rw [h.added]
        rcases hbare with hf | rfl
        · cases node <;> first | rfl | cases hf
        · rfl

/-- What stands on a disk with one more node. -/
theorem Adds.entryAt?_eq (h : old.Adds place node new) (hr : old.IsRooted)
    (hname : Pathname.IsName place.name) (hbare : node.IsBare place.directory) {above : Location}
    (ha : old.numberAt? root above = some place.directory) (location : Location) :
    new.entryAt? location =
      if location = above ++ [place.name] then some (entryOf node) else old.entryAt? location := by
  split
  · rename_i hl
    rw [entryAt?, (h.numberAt?_added hr hname hbare ha).mpr hl, Option.bind_some, h.added]
    rfl
  · rename_i hl
    have hother : new.numberAt? root location ≠ some old.nodes.size :=
      fun hn => hl ((h.numberAt?_added hr hname hbare ha).mp hn)
    unfold entryAt?
    cases hold : old.numberAt? root location with
    | some number =>
      rw [h.numberAt?_kept hold, Option.bind_some, Option.bind_some]
      by_cases hd : number = place.directory
      · obtain ⟨parent, entries, hbefore, -, hnow⟩ := h.named
        rw [hd, hbefore, hnow]
        rfl
      · rw [h.others number hd (Nat.ne_of_lt (hr.tree.numberAt?_lt hr.tree.root_lt hold))]
    | none =>
      cases hnew : new.numberAt? root location with
      | none => rfl
      | some number =>
        rcases h.numberAt?_grown hr.tree hbare.entries_eq_nil hr.tree.root_lt hnew with rfl | hn
        · exact absurd hnew hother
        · cases hold.symm.trans hn

end Adds

def startAt (disk : Disk) (path : Bytes) : Location :=
  if Pathname.isAbsolute path then [] else disk.cwdLocation?.getD []

def wayOf (disk : Disk) (path : Bytes) : List Location :=
  Pathname.way (disk.startAt path) (Pathname.names path)

namespace IsFileTree
variable {disk : Disk} (h : disk.IsFileTree)
include h

theorem directory_at {location : Location} (hd : disk.entryAt? location = some .directory) :
    ∃ number parent entries, disk.numberAt? root location = some number ∧
      disk.nodes[number]? = some (.directory parent entries) := by
  obtain ⟨number, hl, hs⟩ := entryAt?_eq_directory.mp hd
  have hstands : (disk.nodes[number]?).any isRemoved = false := by
    cases location using List.reverseRecOn with
    | nil =>
      obtain rfl := Option.some.inj hl
      exact h.standing _ List.mem_cons_self
    | append_singleton front name =>
      obtain ⟨middle, -, hc⟩ := numberAt?_concat_eq_some.mp hl
      exact h.standing _ (List.mem_cons_of_mem _ (List.mem_map.mpr ⟨_, child?_mem_namings hc, rfl⟩))
  obtain ⟨parent, ha⟩ := Option.isSome_iff_exists.mp hs
  rcases above?_eq_some ha with ⟨entries, hn⟩ | hn
  · exact ⟨number, parent, entries, hl, hn⟩
  · rw [hn] at hstands
    cases hstands

/-- What has something in it is a directory. -/
theorem directory_above {location : Location} {name : Bytes}
    (hs : (disk.entryAt? (location ++ [name])).isSome) :
    disk.entryAt? location = some .directory := by
  rw [entryAt?_isSome h.tree] at hs
  obtain ⟨number, hl⟩ := Option.isSome_iff_exists.mp hs
  obtain ⟨middle, hm, hc⟩ := numberAt?_concat_eq_some.mp hl
  obtain ⟨parent, entries, hn, -⟩ := child?_eq_some hc
  exact entryAt?_eq_directory.mpr ⟨middle, hm, by rw [above?, hn]; rfl⟩

theorem directory_of_prefix {location inner : Location} (hp : location <+: inner)
    (hne : location ≠ inner) (hsome : (disk.entryAt? inner).isSome) :
    disk.entryAt? location = some .directory := by
  obtain ⟨back, rfl⟩ := hp
  induction back using List.reverseRecOn with
  | nil => exact absurd (List.append_nil location).symm hne
  | append_singleton front name ih =>
    rw [← List.append_assoc] at hsome
    have habove := h.directory_above hsome
    by_cases hfront : front = []
    · simpa [hfront] using habove
    · exact ih (by simpa using hfront) (Option.isSome_of_eq_some habove)

/-- A directory that is found by going up is found by going down again. -/
theorem numberAt?_locationFrom {steps number : Nat} {location : Location}
    (hl : disk.locationFrom steps number = some location) :
    disk.numberAt? root location = some number := by
  induction steps generalizing number location with
  | zero => cases hl
  | succ steps ih =>
    rw [locationFrom] at hl
    split at hl
    · rename_i hroot
      obtain rfl := Option.some.inj hl
      rw [hroot]
      rfl
    · split at hl
      · rename_i parent entries hn
        obtain ⟨above, ha, hl⟩ := Option.bind_eq_some_iff.mp hl
        obtain ⟨holder, hh, hl⟩ := Option.bind_eq_some_iff.mp hl
        obtain ⟨entry, hf, hl⟩ := Option.bind_eq_some_iff.mp hl
        obtain rfl := Option.some.inj hl
        have hentry : entry.2 = number :=
          of_decide_eq_true
            (List.find?_some (p := fun entry : Bytes × Nat => decide (entry.2 = number)) hf)
        have hnaming : (⟨parent, entry.1, entry.2⟩ : Naming) ∈ disk.namings :=
          mem_namings.mpr ⟨holder, hh, List.mem_of_find?_eq_some hf⟩
        refine numberAt?_concat_eq_some.mpr ⟨parent, ih ha, ?_⟩
        -- the name is in the directory once, so that looking it up finds this entry
        cases hc : disk.child? parent entry.1 with
        | none =>
          rw [child?, hh, Option.bind_some] at hc
          have hsome : (holder.entries.lookup entry.1).isSome :=
            List.lookup_isSome_iff.mpr ⟨entry, List.mem_of_find?_eq_some hf, beq_self_eq_true _⟩
          rw [hc] at hsome
          cases hsome
        | some found =>
          have hsame := h.distinct _ (child?_mem_namings hc) _ hnaming rfl rfl
          rw [← hentry, (Naming.mk.inj hsame).2.2]
      · cases hl

theorem numberAt?_startAt (path : Bytes) :
    disk.numberAt? root (disk.startAt path) = some (start disk.cwd path) := by
  unfold startAt start
  split
  · rfl
  · obtain ⟨location, hl⟩ := Option.isSome_iff_exists.mp h.placed
    rw [hl, Option.getD_some]
    exact h.numberAt?_locationFrom hl

theorem directory_startAt (path : Bytes) :
    disk.entryAt? (disk.startAt path) = some .directory := by
  have hroot : (disk.above? root).isSome := by
    rw [h.top]
    rfl
  refine entryAt?_eq_directory.mpr ⟨_, h.numberAt?_startAt path, ?_⟩
  unfold start
  split
  · exact hroot
  · obtain ⟨location, hl⟩ := Option.isSome_iff_exists.mp h.placed
    obtain ⟨steps, hsteps⟩ : ∃ steps, disk.nodes.size = steps + 1 :=
      Nat.exists_eq_add_one.mpr h.tree.root_lt
    rw [cwdLocation?, hsteps, locationFrom] at hl
    split at hl
    · rename_i hcwd
      rw [hcwd]
      exact hroot
    · split at hl
      · rename_i hn
        rw [above?, hn]
        rfl
      · cases hl

/-- The location of a path is found by following its names from where it starts. -/
theorem locationOf_eq (path : Bytes) :
    disk.locationOf path = Pathname.follow (disk.startAt path) (Pathname.names path) := by
  obtain ⟨location, hl⟩ := Option.isSome_iff_exists.mp h.placed
  have hnamed := h.locationFrom_named hl
  have hdown : Pathname.follow [] location = location :=
    Pathname.follow_down [] (fun hm => (hnamed _ hm).notHere rfl)
      fun hm => (hnamed _ hm).notUp rfl
  rw [locationOf, route, startAt, Pathname.follow_append, Pathname.follow_filter, hl,
    Option.getD_some]
  split
  · rfl
  · rw [hdown]

theorem locationOf_mem_wayOf (path : Bytes) : disk.locationOf path ∈ disk.wayOf path := by
  rw [h.locationOf_eq]
  exact Pathname.follow_mem_way

end IsFileTree

end Disk

end FirmwareBuild
