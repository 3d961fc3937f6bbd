import FirmwareBuild.Disk

/-! # Growing disks

A disk grows by one node that gets a name where there was none. All that the
names on it led to before they still lead to, and the new name leads to the new
node. So no file goes and none changes, and the only files that appear are those
that the new node is (`Adds.fileAt?_eq`). -/

namespace FirmwareBuild

namespace Text
variable {name : Bytes} {value : Nat}

theorem lookup_putNamed (k : Bytes) : ∀ entries : List (Bytes × Nat),
    (putNamed name value entries).lookup k = if k = name then some value else entries.lookup k
  | [] => by
    rw [putNamed, List.lookup_cons]
    by_cases hk : k = name
    · rw [if_pos hk, beq_iff_eq.mpr hk]
    · rw [if_neg hk, beq_eq_false_iff_ne.mpr hk]
  | (n, old) :: rest => by
    have ih := lookup_putNamed k rest
    rw [putNamed, List.lookup_cons]
    split
    · rename_i hn
      rw [List.lookup_cons, ← hn]
      by_cases hk : k = n
      · rw [if_pos hk, beq_iff_eq.mpr hk]
      · rw [if_neg hk, beq_eq_false_iff_ne.mpr hk]
    · rename_i hn
      rw [List.lookup_cons, ih]
      by_cases hk : k = n
      · rw [beq_iff_eq.mpr hk]
        exact (if_neg fun h => hn (hk ▸ h)).symm
      · rw [beq_eq_false_iff_ne.mpr hk]

theorem mem_putNamed {entry : Bytes × Nat} : ∀ {entries : List (Bytes × Nat)},
    entry ∈ putNamed name value entries → entry.2 = value ∨ entry ∈ entries
  | [], h => by
    rw [putNamed, List.mem_singleton] at h
    exact .inl (h ▸ rfl)
  | (n, old) :: rest, h => by
    rw [putNamed] at h
    split at h
    · rcases List.mem_cons.mp h with rfl | h
      · exact .inl rfl
      · exact .inr (List.mem_cons_of_mem _ h)
    · rcases List.mem_cons.mp h with rfl | h
      · exact .inr List.mem_cons_self
      · exact (mem_putNamed h).imp_right (List.mem_cons_of_mem _)

end Text

namespace Node

def isLink : Node → Bool
  | .link _ => true
  | _ => false

def above? : Node → Option Nat
  | .directory parent _ | .removed parent => some parent
  | _ => none

def mentioned : Node → List Nat
  | .directory parent entries => parent :: entries.map Prod.snd
  | .removed parent => [parent]
  | _ => []

end Node

namespace Disk

/-- A tree of files and directories: no node is a link, and every number that is referred to is
that of a node. -/
structure IsTree (disk : Disk) : Prop where
  linkless : ∀ node ∈ disk.nodes, node.isLink = false
  closed : ∀ node ∈ disk.nodes, ∀ number ∈ node.mentioned, number < disk.nodes.size
  working : disk.cwd < disk.nodes.size

def fileAt? (disk : Disk) (location : Location) : Option Bytes :=
  ((disk.numberAt? root location).bind fun number => disk.nodes[number]?).bind Node.data?

/-- The place of a name that a directory does not hold. -/
def IsFree (disk : Disk) (place : Place) : Prop :=
  ∃ parent entries, disk.nodes[place.directory]? = some (.directory parent entries) ∧
    entries.lookup place.name = none

/-- A disk is another one with one more node, which is named where there was no name. -/
structure Adds (old : Disk) (place : Place) (node : Node) (new : Disk) : Prop where
  named : ∃ parent entries, old.nodes[place.directory]? = some (.directory parent entries) ∧
    entries.lookup place.name = none ∧ new.nodes[place.directory]? =
      some (.directory parent (Text.putNamed place.name old.nodes.size entries))
  added : new.nodes[old.nodes.size]? = some node
  others : ∀ number, number ≠ place.directory → number ≠ old.nodes.size →
    new.nodes[number]? = old.nodes[number]?
  size : new.nodes.size = old.nodes.size + 1
  working : new.cwd = old.cwd

theorem getElem?_setNode (disk : Disk) (number : Nat) (node : Node) (k : Nat) :
    (disk.setNode number node).nodes[k]? =
      if k = number ∧ k < disk.nodes.size then some node else disk.nodes[k]? := by
  simp only [setNode, Array.getElem?_setIfInBounds]
  grind

section Trees
variable {disk : Disk}

theorem IsTree.root_lt (h : disk.IsTree) : root < disk.nodes.size :=
  Nat.lt_of_le_of_lt (Nat.zero_le _) h.working

theorem IsTree.mentioned_lt (h : disk.IsTree) {number other : Nat} {node : Node}
    (hn : disk.nodes[number]? = some node) (ho : other ∈ node.mentioned) :
    other < disk.nodes.size :=
  h.closed node (Array.mem_of_getElem? hn) other ho

theorem IsTree.not_link (h : disk.IsTree) {number : Nat} {target : Bytes} :
    disk.nodes[number]? ≠ some (.link target) := by
  intro hn
  have hl := h.linkless _ (Array.mem_of_getElem? hn)
  cases hl

theorem lookup_mem {entries : List (Bytes × Nat)} {name : Bytes} {number : Nat}
    (h : entries.lookup name = some number) : number ∈ entries.map Prod.snd := by
  obtain ⟨front, back, rfl, -⟩ := List.lookup_eq_some_iff.mp h
  simp

theorem IsTree.child?_lt (h : disk.IsTree) {number child : Nat} {name : Bytes}
    (hc : disk.child? number name = some child) : child < disk.nodes.size := by
  obtain ⟨node, hn, hl⟩ := Option.bind_eq_some_iff.mp hc
  refine h.mentioned_lt hn ?_
  cases node with
  | directory parent entries => exact List.mem_cons_of_mem _ (lookup_mem hl)
  | _ => cases hl

theorem IsTree.numberAt?_lt (h : disk.IsTree) :
    ∀ {location : Location} {number found : Nat}, number < disk.nodes.size →
      disk.numberAt? number location = some found → found < disk.nodes.size
  | [], number, found, hlt, hf => Option.some.inj hf ▸ hlt
  | name :: rest, number, found, hlt, hf => by
    rw [numberAt?] at hf
    cases hc : disk.child? number name with
    | none => rw [hc] at hf; cases hf
    | some child =>
      rw [hc] at hf
      exact h.numberAt?_lt (h.child?_lt hc) hf

end Trees

/-! ## What one more node changes -/

namespace Adds
variable {old new : Disk} {place : Place} {node : Node}

theorem congr {new' : Disk} (h : old.Adds place node new) (hn : new'.nodes = new.nodes)
    (hc : new'.cwd = new.cwd) : old.Adds place node new' :=
  ⟨hn ▸ h.named, hn ▸ h.added, hn ▸ h.others, hn ▸ h.size, hc.trans h.working⟩

theorem free (h : old.Adds place node new) : old.IsFree place := by
  obtain ⟨parent, entries, hd, hl, -⟩ := h.named
  exact ⟨parent, entries, hd, hl⟩

theorem directory_lt (h : old.Adds place node new) : place.directory < old.nodes.size := by
  obtain ⟨parent, entries, hd, -⟩ := h.named
  exact (Array.getElem?_eq_some_iff.mp hd).1

/-- The new node becomes another one. -/
theorem setNode (h : old.Adds place node new) (other : Node) :
    old.Adds place other (new.setNode old.nodes.size other) := by
  have hne : place.directory ≠ old.nodes.size := Nat.ne_of_lt h.directory_lt
  obtain ⟨parent, entries, hd, hl, hn⟩ := h.named
  refine ⟨⟨parent, entries, hd, hl, ?_⟩, ?_, fun number hp hs => ?_, ?_, h.working⟩
  · rw [getElem?_setNode, if_neg fun hc => hne hc.1, hn]
  · rw [getElem?_setNode, if_pos ⟨rfl, by rw [h.size]; omega⟩]
  · rw [getElem?_setNode, if_neg fun hc => hs hc.1, h.others number hp hs]
  · rw [Disk.setNode, Array.size_setIfInBounds, h.size]

/-- The names of old nodes lead where they led, and the new name to the new node. -/
theorem child?_of_lt (h : old.Adds place node new) {number : Nat} (hlt : number < old.nodes.size)
    (name : Bytes) : new.child? number name =
      if number = place.directory ∧ name = place.name then some old.nodes.size
      else old.child? number name := by
  unfold child?
  by_cases hd : number = place.directory
  · obtain ⟨parent, entries, hold, -, hnew⟩ := h.named
    rw [hd, hold, hnew, Option.bind_some, Option.bind_some]
    change (Text.putNamed place.name old.nodes.size entries).lookup name =
      if _ then _ else entries.lookup name
    rw [Text.lookup_putNamed]
    by_cases hname : name = place.name
    · rw [if_pos hname, if_pos ⟨rfl, hname⟩]
    · rw [if_neg hname, if_neg fun hc => hname hc.2]
  · rw [h.others number hd (Nat.ne_of_lt hlt), if_neg fun hc => hd hc.1]

/-- Nothing is in the new node. -/
theorem child?_added (h : old.Adds place node new) (hentries : node.entries = []) (name : Bytes) :
    new.child? old.nodes.size name = none := by
  rw [child?, h.added, Option.bind_some, hentries]
  rfl

/-- A name that was there is not the new one. -/
theorem child?_kept (h : old.Adds place node new) {number found : Nat} {name : Bytes}
    (hc : old.child? number name = some found) : new.child? number name = some found := by
  obtain ⟨other, hn, -⟩ := Option.bind_eq_some_iff.mp hc
  have hlt := (Array.getElem?_eq_some_iff.mp hn).1
  have hne : ¬(number = place.directory ∧ name = place.name) := by
    rintro ⟨rfl, rfl⟩
    obtain ⟨parent, entries, hd, hl⟩ := h.free
    rw [child?, hd, Option.bind_some] at hc
    exact absurd (hl.symm.trans hc) nofun
  rw [h.child?_of_lt hlt, if_neg hne, hc]

theorem numberAt?_kept (h : old.Adds place node new) :
    ∀ {location : Location} {number found : Nat},
      old.numberAt? number location = some found → new.numberAt? number location = some found
  | [], _, _, hf => hf
  | name :: rest, number, found, hf => by
    rw [numberAt?] at hf ⊢
    cases hc : old.child? number name with
    | none => rw [hc] at hf; cases hf
    | some child =>
      rw [hc] at hf
      rw [h.child?_kept hc]
      exact h.numberAt?_kept hf

/-- A location on the grown disk is one of the old disk or that of the new node. -/
theorem numberAt?_grown (h : old.Adds place node new) (ht : old.IsTree)
    (hentries : node.entries = []) :
    ∀ {location : Location} {number found : Nat}, number < old.nodes.size →
      new.numberAt? number location = some found →
        found = old.nodes.size ∨ old.numberAt? number location = some found
  | [], _, _, _, hf => .inr hf
  | name :: rest, number, found, hlt, hf => by
    rw [numberAt?, h.child?_of_lt hlt] at hf
    split at hf
    · -- the new name is the last one, for nothing is in the new node
      rename_i child hc
      split at hc
      · obtain rfl := Option.some.inj hc
        cases rest with
        | nil => exact .inl (Option.some.inj hf).symm
        | cons inner more =>
          rw [numberAt?, h.child?_added hentries] at hf
          cases hf
      · rw [numberAt?, hc]
        exact h.numberAt?_grown ht hentries (ht.child?_lt hc) hf
    · cases hf

/-- An old node holds the data that it held. -/
theorem data?_kept (h : old.Adds place node new) {number : Nat} (hlt : number < old.nodes.size) :
    new.nodes[number]?.bind Node.data? = old.nodes[number]?.bind Node.data? := by
  by_cases hd : number = place.directory
  · obtain ⟨parent, entries, hold, -, hnew⟩ := h.named
    rw [hd, hold, hnew]
    rfl
  · rw [h.others number hd (Nat.ne_of_lt hlt)]

/-- The files of a grown disk are the old ones and what the new node is. -/
theorem fileAt?_eq (h : old.Adds place node new) (ht : old.IsTree) (hentries : node.entries = [])
    (location : Location) : new.fileAt? location =
      if new.numberAt? root location = some old.nodes.size then node.data?
      else old.fileAt? location := by
  unfold fileAt?
  split
  · rename_i hn
    rw [hn, Option.bind_some, h.added, Option.bind_some]
  · rename_i hn
    cases hold : old.numberAt? root location with
    | some found =>
      rw [h.numberAt?_kept hold, Option.bind_some, Option.bind_some]
      exact h.data?_kept (ht.numberAt?_lt ht.root_lt hold)
    | none =>
      cases hnew : new.numberAt? root location with
      | none => rfl
      | some found =>
        rcases h.numberAt?_grown ht hentries ht.root_lt hnew with rfl | hf
        · exact absurd hnew hn
        · exact absurd (hold.symm.trans hf) nofun

/-- There was no file where the new node is. -/
theorem fileAt?_before (h : old.Adds place node new) (ht : old.IsTree) {location : Location}
    (hn : new.numberAt? root location = some old.nodes.size) : old.fileAt? location = none := by
  unfold fileAt?
  cases hold : old.numberAt? root location with
  | none => rfl
  | some found =>
    have hlt := ht.numberAt?_lt ht.root_lt hold
    rw [h.numberAt?_kept hold] at hn
    exact absurd (Option.some.inj hn) (Nat.ne_of_lt hlt)

/-- A tree with one more file or directory is a tree. -/
theorem isTree (h : old.Adds place node new) (ht : old.IsTree) (hlink : node.isLink = false)
    (hmentioned : ∀ number ∈ node.mentioned, number < old.nodes.size) : new.IsTree := by
  have hnodes {other : Node} (ho : other ∈ new.nodes) : other.isLink = false ∧
      ∀ number ∈ other.mentioned, number ≤ old.nodes.size := by
    obtain ⟨number, hn⟩ := Array.mem_iff_getElem?.mp ho
    by_cases hd : number = place.directory
    · obtain ⟨parent, entries, hold, -, hnew⟩ := h.named
      rw [hd, hnew] at hn
      obtain rfl := Option.some.inj hn
      refine ⟨rfl, fun mentioned hm => ?_⟩
      rcases List.mem_cons.mp hm with rfl | hm
      · exact Nat.le_of_lt (ht.mentioned_lt hold List.mem_cons_self)
      · obtain ⟨entry, he, rfl⟩ := List.mem_map.mp hm
        rcases Text.mem_putNamed he with hv | he
        · exact Nat.le_of_eq hv
        · have hm : entry.2 ∈ entries.map Prod.snd := List.mem_map_of_mem he
          exact Nat.le_of_lt (ht.mentioned_lt hold (List.mem_cons_of_mem parent hm))
    · by_cases hs : number = old.nodes.size
      · rw [hs, h.added] at hn
        obtain rfl := Option.some.inj hn
        exact ⟨hlink, fun mentioned hm => Nat.le_of_lt (hmentioned mentioned hm)⟩
      · rw [h.others number hd hs] at hn
        exact ⟨ht.linkless _ (Array.mem_of_getElem? hn),
          fun mentioned hm => Nat.le_of_lt (ht.mentioned_lt hn hm)⟩
  refine ⟨fun other ho => (hnodes ho).1, fun other ho number hm => ?_, ?_⟩
  · rw [h.size]
    exact Nat.lt_succ_of_le ((hnodes ho).2 number hm)
  · rw [h.working, h.size]
    exact Nat.lt_succ_of_lt ht.working

end Adds

theorem setEntry_eq {disk : Disk} {directory parent : Nat} {entries : List (Bytes × Nat)}
    (h : disk.nodes[directory]? = some (.directory parent entries)) (name : Bytes) (number : Nat) :
    disk.setEntry directory name number = (disk.setNode directory
      (.directory parent (Text.putNamed name number entries))).touch directory := by
  rw [setEntry, h]

/-- A node that is added at a free place has the name there. -/
theorem addNode_adds {disk : Disk} {place : Place} (h : disk.IsFree place) (node : Node) :
    disk.Adds place node (disk.addNode place node).2 := by
  obtain ⟨parent, entries, hd, hl⟩ := h
  have hlt := (Array.getElem?_eq_some_iff.mp hd).1
  have hne : place.directory ≠ disk.nodes.size := Nat.ne_of_lt hlt
  have hpushed : (disk.nodes.push node)[place.directory]? = some (.directory parent entries) := by
    rw [Array.getElem?_push, if_neg hne, hd]
  have hgrown : (disk.addNode place node).2 =
      (({ disk with nodes := disk.nodes.push node }.touch disk.nodes.size).setNode place.directory
        (.directory parent (Text.putNamed place.name disk.nodes.size entries))).touch
          place.directory := by
    exact setEntry_eq hpushed _ _
  rw [hgrown]
  have hget (number : Nat) := getElem?_setNode
    ({ disk with nodes := disk.nodes.push node }.touch disk.nodes.size) place.directory
    (.directory parent (Text.putNamed place.name disk.nodes.size entries)) number
  refine ⟨⟨parent, entries, hd, hl, (hget _).trans ?_⟩, (hget _).trans ?_,
    fun number hp hs => (hget _).trans ?_, ?_, rfl⟩
  · have hlt' : place.directory < (disk.nodes.push node).size := by
      rw [Array.size_push]
      exact Nat.lt_succ_of_lt hlt
    exact if_pos ⟨rfl, hlt'⟩
  · rw [if_neg fun hc => hne hc.1.symm]
    exact Array.getElem?_push_size
  · rw [if_neg fun hc => hp hc.1]
    change (disk.nodes.push node)[number]? = _
    rw [Array.getElem?_push, if_neg hs]
  · change ((disk.nodes.push node).setIfInBounds _ _).size = _
    rw [Array.size_setIfInBounds, Array.size_push]

end Disk

end FirmwareBuild
