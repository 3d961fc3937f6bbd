import FirmwareBuild.Proofs.DiskPaths
import Mathlib.Data.List.Induction

/-! # Rooted trees

In a rooted tree of files and directories everything but the root has one name,
and a directory knows the one that its name is in. So each node has one location,
`..` leads to the location without its last name, and what a path leads to is found
by its names alone (`IsRooted.leads_found`). Growing by a node and giving a file other data
both leave such a tree, and what they change is at one location. -/

namespace FirmwareBuild

namespace Pathname

def stepTo (location : Location) (name : Bytes) : Location :=
  if name = here then location
  else if name = up then location.dropLast
  else location ++ [name]

/-- Where names lead from a location, by their spelling. -/
def follow (location : Location) (names : List Bytes) : Location := names.foldl stepTo location

theorem follow_append (location : Location) (front back : List Bytes) :
    follow location (front ++ back) = follow (follow location front) back := List.foldl_append

theorem follow_down (location : Location) {names : List Bytes} (hhere : here ∉ names)
    (hup : up ∉ names) : follow location names = location ++ names := by
  induction names generalizing location with
  | nil => exact (List.append_nil location).symm
  | cons name rest ih =>
    simp only [List.mem_cons, not_or] at hhere hup
    have hstep : stepTo location name = location ++ [name] := by
      rw [stepTo, if_neg (Ne.symm hhere.1), if_neg (Ne.symm hup.1)]
    have hrest := ih (location ++ [name]) hhere.2 hup.2
    rw [follow, List.foldl_cons, hstep]
    rw [follow] at hrest
    rw [hrest, List.append_assoc, List.singleton_append]

structure IsName (name : Bytes) : Prop where
  notEmpty : name ≠ []
  noSlash : slash ∉ name
  notHere : name ≠ here
  notUp : name ≠ up

instance (name : Bytes) : Decidable (IsName name) :=
  decidable_of_iff (name ≠ [] ∧ slash ∉ name ∧ name ≠ here ∧ name ≠ up)
    ⟨fun ⟨h₁, h₂, h₃, h₄⟩ => ⟨h₁, h₂, h₃, h₄⟩, fun ⟨h₁, h₂, h₃, h₄⟩ => ⟨h₁, h₂, h₃, h₄⟩⟩

end Pathname

structure Naming where
  directory : Nat
  name : Bytes
  number : Nat
  deriving DecidableEq

namespace Disk

def namings (disk : Disk) : List Naming :=
  (List.range disk.nodes.size).flatMap fun directory =>
    (((disk.nodes[directory]?).map Node.entries).getD []).map fun entry =>
      ⟨directory, entry.1, entry.2⟩

/-- A rooted tree of files and directories, and a working directory in it. -/
structure IsRooted (disk : Disk) : Prop where
  tree : disk.IsTree
  plain : ∀ node ∈ disk.nodes, node.isFile ∨ node.above?.isSome
  top : disk.above? root = some root
  single : ∀ a ∈ disk.namings, ∀ b ∈ disk.namings, a.number = b.number → a = b
  notRoot : ∀ a ∈ disk.namings, a.number ≠ root
  parents : ∀ a ∈ disk.namings, ∀ parent ∈ disk.above? a.number, parent = a.directory
  named : ∀ a ∈ disk.namings, Pathname.IsName a.name
  placed : disk.cwdLocation?.isSome

instance (disk : Disk) : Decidable disk.IsTree :=
  decidable_of_iff ((∀ node ∈ disk.nodes, node.isLink = false) ∧
      (∀ node ∈ disk.nodes, ∀ number ∈ node.mentioned, number < disk.nodes.size) ∧
      disk.cwd < disk.nodes.size)
    ⟨fun ⟨h₁, h₂, h₃⟩ => ⟨h₁, h₂, h₃⟩, fun ⟨h₁, h₂, h₃⟩ => ⟨h₁, h₂, h₃⟩⟩

instance (disk : Disk) : Decidable disk.IsRooted :=
  decidable_of_iff (disk.IsTree ∧ (∀ node ∈ disk.nodes, node.isFile ∨ node.above?.isSome) ∧
      disk.above? root = some root ∧
      (∀ a ∈ disk.namings, ∀ b ∈ disk.namings, a.number = b.number → a = b) ∧
      (∀ a ∈ disk.namings, a.number ≠ root) ∧
      (∀ a ∈ disk.namings, ∀ parent ∈ disk.above? a.number, parent = a.directory) ∧
      (∀ a ∈ disk.namings, Pathname.IsName a.name) ∧ disk.cwdLocation?.isSome)
    ⟨fun ⟨h₁, h₂, h₃, h₄, h₅, h₆, h₇, h₈⟩ => ⟨h₁, h₂, h₃, h₄, h₅, h₆, h₇, h₈⟩,
      fun ⟨h₁, h₂, h₃, h₄, h₅, h₆, h₇, h₈⟩ => ⟨h₁, h₂, h₃, h₄, h₅, h₆, h₇, h₈⟩⟩

def HasDirectory (disk : Disk) (location : Location) : Prop :=
  ∃ number, disk.numberAt? root location = some number ∧ (disk.above? number).isSome

section Names
variable {disk : Disk} {number found : Nat} {name : Bytes} {location : Location}

theorem mem_namings {naming : Naming} : naming ∈ disk.namings ↔
    ∃ node, disk.nodes[naming.directory]? = some node ∧
      (naming.name, naming.number) ∈ node.entries := by
  simp only [namings, List.mem_flatMap, List.mem_range, List.mem_map]
  constructor
  · rintro ⟨directory, -, entry, he, rfl⟩
    cases hn : disk.nodes[directory]? with
    | none => simp [hn] at he
    | some node =>
      rw [hn] at he
      exact ⟨node, rfl, he⟩
  · rintro ⟨node, hn, he⟩
    have hlt := (Array.getElem?_eq_some_iff.mp hn).1
    refine ⟨naming.directory, hlt, (naming.name, naming.number), ?_, rfl⟩
    rw [hn]
    exact he

theorem child?_mem_namings (h : disk.child? number name = some found) :
    ⟨number, name, found⟩ ∈ disk.namings := by
  obtain ⟨node, hn, hl⟩ := Option.bind_eq_some_iff.mp h
  obtain ⟨front, back, he, -⟩ := List.lookup_eq_some_iff.mp hl
  refine mem_namings.mpr ⟨node, hn, ?_⟩
  rw [he]
  exact List.mem_append_right _ List.mem_cons_self

theorem numberAt?_append (disk : Disk) (number : Nat) (front back : Location) :
    disk.numberAt? number (front ++ back) =
      (disk.numberAt? number front).bind fun middle => disk.numberAt? middle back := by
  induction front generalizing number with
  | nil => rfl
  | cons name rest ih =>
    rw [List.cons_append, numberAt?, numberAt?]
    cases disk.child? number name with
    | none => rfl
    | some child => exact ih child

theorem numberAt?_concat_eq_some : disk.numberAt? number (location ++ [name]) = some found ↔
    ∃ middle, disk.numberAt? number location = some middle ∧
      disk.child? middle name = some found := by
  have hone (middle : Nat) : disk.numberAt? middle [name] = disk.child? middle name := by
    rw [numberAt?]
    cases disk.child? middle name <;> rfl
  rw [numberAt?_append, Option.bind_eq_some_iff]
  exact exists_congr fun middle => and_congr_right fun _ => by rw [hone]

end Names

namespace IsRooted
variable {disk : Disk} (h : disk.IsRooted)
include h

/-- **A node has one location.** -/
theorem location_unique {location other : Location} {number : Nat}
    (hl : disk.numberAt? root location = some number)
    (ho : disk.numberAt? root other = some number) : location = other := by
  -- from the last name on: the node has one entry, so both last names and both directories agree
  induction location using List.reverseRecOn generalizing other number with
  | nil =>
    obtain rfl := Option.some.inj hl
    cases other using List.reverseRecOn with
    | nil => rfl
    | append_singleton front name =>
      obtain ⟨middle, -, hc⟩ := numberAt?_concat_eq_some.mp ho
      exact absurd rfl (h.notRoot _ (child?_mem_namings hc))
  | append_singleton front name ih =>
    obtain ⟨middle, hm, hc⟩ := numberAt?_concat_eq_some.mp hl
    cases other using List.reverseRecOn with
    | nil =>
      obtain rfl := Option.some.inj ho
      exact absurd rfl (h.notRoot _ (child?_mem_namings hc))
    | append_singleton front' name' =>
      obtain ⟨middle', hm', hc'⟩ := numberAt?_concat_eq_some.mp ho
      have hsame := h.single _ (child?_mem_namings hc) _ (child?_mem_namings hc') rfl
      obtain ⟨rfl, rfl, -⟩ := Naming.mk.inj hsame
      rw [ih hm hm']

theorem numberAt?_dropLast {location : Location} {number parent : Nat}
    (hl : disk.numberAt? root location = some number) (ha : disk.above? number = some parent) :
    disk.numberAt? root location.dropLast = some parent := by
  cases location using List.reverseRecOn with
  | nil =>
    obtain rfl := Option.some.inj hl
    exact h.top.symm.trans ha
  | append_singleton front name =>
    obtain ⟨middle, hm, hc⟩ := numberAt?_concat_eq_some.mp hl
    rw [h.parents _ (child?_mem_namings hc) parent ha, List.dropLast_concat]
    exact hm

/-- **A path leads to the location that its names come to.** Where there is no node, the place is
free, in the directory of that location. -/
theorem leads_found {names : List Bytes} {directory : Nat} {place : Place} {location : Location}
    (hl : disk.Leads directory names place)
    (hd : disk.numberAt? root location = some directory) :
    (∀ number, place.node = some number →
      disk.numberAt? root (Pathname.follow location names) = some number) ∧
    (place.node = none → IsOrdinary place.name ∧ place.name ∈ names ∧ ∃ above,
      disk.numberAt? root above = some place.directory ∧
        Pathname.follow location names = above ++ [place.name]) := by
  induction hl generalizing location with
  | stop directory =>
    refine ⟨fun number hn => ?_, nofun⟩
    obtain rfl := Option.some.inj hn
    exact hd
  | @here directory parent rest place above more ih =>
    have hstep : Pathname.follow location (Pathname.here :: rest) =
        Pathname.follow location rest := by
      rw [Pathname.follow, List.foldl_cons, Pathname.stepTo, if_pos rfl, Pathname.follow]
    rw [hstep]
    refine ⟨(ih hd).1, fun hnone => ?_⟩
    obtain ⟨hordinary, hm, hfree⟩ := (ih hd).2 hnone
    exact ⟨hordinary, List.mem_cons_of_mem _ hm, hfree⟩
  | @up directory parent rest place above more ih =>
    -- the directory above is the one without the last name, which is what the spelling says
    have hne : Pathname.up ≠ Pathname.here := by decide
    have hstep : Pathname.follow location (Pathname.up :: rest) =
        Pathname.follow location.dropLast rest := by
      rw [Pathname.follow, List.foldl_cons, Pathname.stepTo, if_neg hne, if_pos rfl,
        Pathname.follow]
    have hparent := h.numberAt?_dropLast hd above
    rw [hstep]
    refine ⟨(ih hparent).1, fun hnone => ?_⟩
    obtain ⟨hordinary, hm, hfree⟩ := (ih hparent).2 hnone
    exact ⟨hordinary, List.mem_cons_of_mem _ hm, hfree⟩
  | @last directory parent entries name holds ordinary =>
    have hstep : Pathname.follow location [name] = location ++ [name] := by
      rw [Pathname.follow, List.foldl_cons, Pathname.stepTo, if_neg ordinary.notHere,
        if_neg ordinary.notUp, List.foldl_nil]
    rw [hstep]
    refine ⟨fun number hn => ?_, fun _ => ⟨ordinary, List.mem_cons_self, location, hd, rfl⟩⟩
    have hchild : disk.child? directory name = some number := by
      rw [child?, holds]
      exact hn
    exact numberAt?_concat_eq_some.mpr ⟨directory, hd, hchild⟩
  | @down directory number name rest place child ordinary goesOn more ih =>
    have hstep : Pathname.follow location (name :: rest) =
        Pathname.follow (location ++ [name]) rest := by
      rw [Pathname.follow, List.foldl_cons, Pathname.stepTo, if_neg ordinary.notHere,
        if_neg ordinary.notUp, Pathname.follow]
    have hnumber := numberAt?_concat_eq_some.mpr ⟨directory, hd, child⟩
    rw [hstep]
    refine ⟨(ih hnumber).1, fun hnone => ?_⟩
    obtain ⟨hordinary, hm, hfree⟩ := (ih hnumber).2 hnone
    exact ⟨hordinary, List.mem_cons_of_mem _ hm, hfree⟩

end IsRooted

end Disk

end FirmwareBuild
