import FirmwareBuild.Proofs.DiskChanges

/-! # Paths that go on leading where they led

A disk is within another one if nothing that stands on it is gone there: directories may hold
more names and files other data. A path that leads to something on the smaller disk leads to the
same node on the larger one, through the same links (`IsWithin.lookup`). Making directories,
writing and copying files lead from a disk to one that it is within, whatever links there are
and however far they get (`Addition.extends`). -/

namespace FirmwareBuild

namespace Node

def target? : Node → Option Bytes
  | .link target => some target
  | _ => none

/-- What becomes of a node where nothing goes: a directory may hold more names, and a file is
a file. -/
inductive Stays : Node → Node → Prop where
  | same (node : Node) : Stays node node
  | directory {parent : Nat} {entries more : List (Bytes × Nat)}
      (kept : ∀ name number, entries.lookup name = some number →
        more.lookup name = some number) :
    Stays (.directory parent entries) (.directory parent more)
  | file {old new : Node} (was : old.isFile) (is : new.isFile) : Stays old new

namespace Stays
variable {a b c : Node}

theorem trans (h : a.Stays b) (h' : b.Stays c) : a.Stays c := by
  cases h with
  | same => exact h'
  | directory kept =>
    cases h' with
    | same => exact .directory kept
    | directory kept' =>
      exact .directory fun name number hl => kept' name number (kept name number hl)
    | file was is => cases was
  | file was is =>
    cases h' with
    | same => exact .file was is
    | directory kept => cases is
    | file _ is => exact .file was is

theorem target? (h : a.Stays b) : b.target? = a.target? := by
  cases h with
  | same => rfl
  | directory kept => rfl
  | file was is => cases a <;> cases was <;> cases b <;> cases is <;> rfl

end Stays

end Node

namespace Disk

def target? (disk : Disk) (number : Nat) : Option Bytes :=
  (disk.nodes[number]?).bind Node.target?

section Following
variable {onLink : Nat → Bytes → List Bytes → Except IoError Place} {followsLast : Bool}
  {disk : Disk}

/-- One name of a path, on any disk. -/
theorem along_name (directory : Nat) (name : Bytes) (rest : List Bytes) :
    along onLink followsLast disk directory (name :: rest) =
      match disk.nodes[directory]? with
      | some (.directory parent entries) =>
        if name = Pathname.here then along onLink followsLast disk directory rest
        else if name = Pathname.up then along onLink followsLast disk parent rest
        else if name.length > maxName then .error .nameTooLong
        else match entries.lookup name with
          | none => if rest.isEmpty then .ok { directory, name, node := none } else .error .notFound
          | some number =>
            match disk.target? number with
            | some target =>
              if rest.isEmpty && !followsLast then .ok { directory, name, node := some number }
              else onLink directory target rest
            | none =>
              if rest.isEmpty then .ok { directory, name, node := some number }
              else along onLink followsLast disk number rest
      | some (.removed parent) =>
        if name = Pathname.here then along onLink followsLast disk directory rest
        else if name = Pathname.up then along onLink followsLast disk parent rest
        else .error .notFound
      | _ => .error .notADirectory := by
  rw [along]
  cases disk.nodes[directory]? with
  | none => rfl
  | some node =>
    cases node with
    | directory parent entries =>
      simp only
      cases entries.lookup name with
      | none => rfl
      | some number =>
        dsimp only
        rw [target?]
        cases disk.nodes[number]? with
        | none => cases rest <;> rfl
        | some child => cases child <;> cases rest <;> rfl
    | _ => rfl

end Following

/-- A path leads to the node at the place where its names lead. -/
theorem lookup_eq_ok {disk : Disk} {path : Bytes} {number : Nat} {node : Node} :
    disk.lookup path = .ok (number, node) ↔ ∃ place,
      disk.resolve true path (strictNames path) = .ok place ∧ place.node = some number ∧
        disk.nodes[number]? = some node := by
  unfold lookup look
  cases disk.resolve true path (strictNames path) with
  | error cause => exact ⟨nofun, nofun⟩
  | ok place =>
    dsimp only [bind, Except.bind]
    constructor
    · intro hp
      split at hp
      · cases hp
      · rename_i found hfound
        split at hp
        · rename_i hn
          cases hp
          exact ⟨place, rfl, hfound, hn⟩
        · cases hp
    · rintro ⟨place, hplace, hfound, hn⟩
      obtain rfl := Except.ok.inj hplace
      rw [hfound]
      dsimp only
      rw [hn]

def Stands (disk : Disk) (place : Place) : Prop :=
  ∃ number node, place.node = some number ∧ disk.nodes[number]? = some node

def IsWithin (old new : Disk) : Prop :=
  ∀ (number : Nat) (node : Node), old.nodes[number]? = some node →
    ∃ now, new.nodes[number]? = some now ∧ node.Stays now

namespace IsWithin
variable {old new last : Disk}

theorem refl (disk : Disk) : disk.IsWithin disk := fun _ node hn => ⟨node, hn, .same node⟩

theorem trans (h : old.IsWithin new) (h' : new.IsWithin last) : old.IsWithin last := by
  intro number node hn
  obtain ⟨now, hnow, hs⟩ := h number node hn
  obtain ⟨then', hthen, hs'⟩ := h' number now hnow
  exact ⟨then', hthen, hs.trans hs'⟩

/-- A disk with the same nodes has all that stands on it. -/
theorem of_nodes (h : new.nodes = old.nodes) : old.IsWithin new := by
  intro number node hn
  exact ⟨node, h ▸ hn, .same node⟩

variable (h : old.IsWithin new)
include h

theorem directory {number parent : Nat} {entries : List (Bytes × Nat)}
    (hd : old.nodes[number]? = some (.directory parent entries)) :
    ∃ more, new.nodes[number]? = some (.directory parent more) ∧
      ∀ name child, entries.lookup name = some child → more.lookup name = some child := by
  obtain ⟨now, hnow, hs⟩ := h number _ hd
  cases hs with
  | same => exact ⟨entries, hnow, fun _ _ hl => hl⟩
  | directory kept => exact ⟨_, hnow, kept⟩
  | file was is => cases was

theorem removed {number parent : Nat} (hd : old.nodes[number]? = some (.removed parent)) :
    new.nodes[number]? = some (.removed parent) := by
  obtain ⟨now, hnow, hs⟩ := h number _ hd
  cases hs with
  | same => exact hnow
  | file was is => cases was

theorem target?_eq {number : Nat} {node : Node} (hn : old.nodes[number]? = some node) :
    new.target? number = old.target? number := by
  obtain ⟨now, hnow, hs⟩ := h number node hn
  rw [target?, target?, hn, hnow, Option.bind_some, Option.bind_some, hs.target?]

/-- Names that lead to something still lead there. What a link leads to is left to others. -/
theorem along {onLink onLink' : Nat → Bytes → List Bytes → Except IoError Place}
    (hlink : ∀ directory target rest place, onLink directory target rest = .ok place →
      old.Stands place → onLink' directory target rest = .ok place)
    {followsLast : Bool} {names : List Bytes} {directory : Nat} {place : Place}
    (hp : along onLink followsLast old directory names = .ok place) (hs : old.Stands place) :
    Disk.along onLink' followsLast new directory names = .ok place := by
  induction names generalizing directory with
  | nil => exact hp
  | cons name rest ih =>
    rw [along_name] at hp ⊢
    split at hp
    · rename_i parent entries hd
      obtain ⟨more, hnew, hkept⟩ := h.directory hd
      rw [hnew]
      dsimp only
      split at hp
      · rename_i hhere
        rw [if_pos hhere]
        exact ih hp
      · rename_i hhere
        rw [if_neg hhere]
        split at hp
        · rename_i hup
          rw [if_pos hup]
          exact ih hp
        · rename_i hup
          rw [if_neg hup]
          split at hp
          · cases hp
          · rename_i hshort
            rw [if_neg hshort]
            split at hp
            · -- nothing stands where there is no such name
              split at hp
              · obtain rfl := Except.ok.inj hp
                obtain ⟨number, node, hnumber, -⟩ := hs
                cases hnumber
              · cases hp
            · rename_i number hl
              rw [hkept name number hl]
              dsimp only
              -- the name is that of a node, or it would lead nowhere
              obtain ⟨node, hn⟩ : ∃ node, old.nodes[number]? = some node := by
                cases hn : old.nodes[number]? with
                | some node => exact ⟨node, rfl⟩
                | none =>
                  rw [target?, hn, Option.bind_none] at hp
                  cases rest with
                  | nil =>
                    obtain rfl := Except.ok.inj hp
                    obtain ⟨found, node, hfound, hnode⟩ := hs
                    obtain rfl := Option.some.inj hfound
                    cases hn.symm.trans hnode
                  | cons next others =>
                    dsimp only at hp
                    rw [if_neg (by simp), along_name, hn] at hp
                    cases hp
              rw [h.target?_eq hn]
              split at hp
              · split at hp
                · rename_i hlast
                  rw [if_pos hlast]
                  exact hp
                · rename_i hlast
                  rw [if_neg hlast]
                  exact hlink _ _ _ _ hp hs
              · split at hp
                · rename_i hlast
                  rw [if_pos hlast]
                  exact hp
                · rename_i hlast
                  rw [if_neg hlast]
                  exact ih hp
    · rename_i parent hd
      rw [h.removed hd]
      dsimp only
      split at hp
      · rename_i hhere
        rw [if_pos hhere]
        exact ih hp
      · rename_i hhere
        rw [if_neg hhere]
        split at hp
        · rename_i hup
          rw [if_pos hup]
          exact ih hp
        · cases hp
    · cases hp

theorem walk {followsLast : Bool} {links directory : Nat} {names : List Bytes} {place : Place}
    (hp : walk followsLast old links directory names = .ok place) (hs : old.Stands place) :
    Disk.walk followsLast new links directory names = .ok place := by
  induction links generalizing directory names place with
  | zero => exact h.along (fun _ _ _ _ hl _ => hl) hp hs
  | succ links ih => exact h.along (fun _ _ _ _ hl hs => ih hl hs) hp hs

theorem resolve {followsLast : Bool} {path : Bytes} {names : List Bytes} {place : Place}
    (hstart : start new.cwd path = start old.cwd path)
    (hp : old.resolve followsLast path names = .ok place) (hs : old.Stands place) :
    new.resolve followsLast path names = .ok place := by
  unfold Disk.resolve at hp ⊢
  rw [hstart]
  split at hp
  · cases hp
  · rw [if_neg ‹_›]
    split at hp
    · cases hp
    · rw [if_neg ‹_›]
      split at hp
      · cases hp
      · rw [if_neg ‹_›]
        exact h.walk hp hs

/-- **A path that leads to something still leads there.** -/
theorem lookup {path : Bytes} (hstart : start new.cwd path = start old.cwd path) {number : Nat}
    {node : Node} (hp : old.lookup path = .ok (number, node)) :
    ∃ now, new.lookup path = .ok (number, now) ∧ node.Stays now := by
  obtain ⟨place, hplace, hnumber, hn⟩ := lookup_eq_ok.mp hp
  obtain ⟨now, hnow, hs⟩ := h number node hn
  have hnew := h.resolve hstart hplace ⟨number, node, hnumber, hn⟩
  exact ⟨now, lookup_eq_ok.mpr ⟨place, hnew, hnumber, hnow⟩, hs⟩

theorem pathExists {path : Bytes} (hcwd : new.cwd = old.cwd) (hp : old.pathExists path = true) :
    new.pathExists path = true := by
  unfold Disk.pathExists node? at hp ⊢
  cases hl : old.lookup path with
  | error cause => rw [hl] at hp; cases hp
  | ok found =>
    obtain ⟨now, hnow, -⟩ := h.lookup (by rw [hcwd]) hl
    rw [hnow]
    rfl

end IsWithin

/-! ## Changes that take nothing away -/

section Free
variable {disk : Disk} {followsLast : Bool}

theorem along_free {onLink : Nat → Bytes → List Bytes → Except IoError Place}
    (hlink : ∀ directory target rest place, onLink directory target rest = .ok place →
      place.node = none → disk.IsFree place)
    {names : List Bytes} {directory : Nat} {place : Place}
    (hp : along onLink followsLast disk directory names = .ok place)
    (hnone : place.node = none) : disk.IsFree place := by
  induction names generalizing directory with
  | nil =>
    obtain rfl := Except.ok.inj hp
    cases hnone
  | cons name rest ih =>
    rw [along_name] at hp
    split at hp
    · rename_i parent entries hd
      split at hp
      · exact ih hp
      · split at hp
        · exact ih hp
        · split at hp
          · cases hp
          · split at hp
            · rename_i hl
              split at hp
              · obtain rfl := Except.ok.inj hp
                exact ⟨parent, entries, hd, hl⟩
              · cases hp
            · split at hp
              · split at hp
                · obtain rfl := Except.ok.inj hp
                  cases hnone
                · exact hlink _ _ _ _ hp hnone
              · split at hp
                · obtain rfl := Except.ok.inj hp
                  cases hnone
                · exact ih hp
    · split at hp
      · exact ih hp
      · split at hp
        · exact ih hp
        · cases hp
    · cases hp

theorem walk_free {links directory : Nat} {names : List Bytes} {place : Place}
    (hp : walk followsLast disk links directory names = .ok place) (hnone : place.node = none) :
    disk.IsFree place := by
  induction links generalizing directory names place with
  | zero => exact along_free (fun _ _ _ _ hl => by cases hl) hp hnone
  | succ links ih => exact along_free (fun _ _ _ _ hl hn => ih hl hn) hp hnone

/-- Where a path leads to nothing there is a free place, also behind links. -/
theorem resolve_place_free {path : Bytes} {names : List Bytes} {place : Place}
    (hp : disk.resolve followsLast path names = .ok place) (hnone : place.node = none) :
    disk.IsFree place := by
  unfold resolve at hp
  split at hp
  · cases hp
  · split at hp
    · cases hp
    · split at hp
      · cases hp
      · exact walk_free hp hnone

end Free

/-- A disk on which nothing went, and on which relative paths start where they started. -/
structure Extends (old new : Disk) : Prop where
  within : old.IsWithin new
  working : new.cwd = old.cwd

namespace Extends
variable {old new last : Disk}

theorem refl (disk : Disk) : disk.Extends disk := ⟨.refl disk, rfl⟩

theorem trans (h : old.Extends new) (h' : new.Extends last) : old.Extends last :=
  ⟨h.within.trans h'.within, h'.working.trans h.working⟩

theorem touch (h : old.Extends new) (number : Nat) : old.Extends (new.touch number) :=
  ⟨h.within, h.working⟩

end Extends

theorem Adds.extends {old new : Disk} {place : Place} {node : Node}
    (h : old.Adds place node new) : old.Extends new := by
  refine ⟨fun number before hn => ?_, h.working⟩
  have hlt := (Array.getElem?_eq_some_iff.mp hn).1
  by_cases hd : number = place.directory
  · obtain ⟨parent, entries, hold, hfree, hnew⟩ := h.named
    rw [← hd] at hold hnew
    obtain rfl := Option.some.inj (hn.symm.trans hold)
    refine ⟨_, hnew, .directory fun name child hl => ?_⟩
    have hne : name ≠ place.name := by
      rintro rfl
      cases hl.symm.trans hfree
    rw [Text.lookup_putNamed, if_neg hne]
    exact hl
  · exact ⟨before, (h.others number hd (Nat.ne_of_lt hlt)).trans hn, .same before⟩

section Changes
variable (disk : Disk)

/-- Another file where a file is takes nothing away. -/
theorem setNode_extends {number : Nat} {before node : Node}
    (hn : disk.nodes[number]? = some before) (hb : before.isFile) (hf : node.isFile) :
    disk.Extends (disk.setNode number node) := by
  refine ⟨fun k other hk => ?_, rfl⟩
  rw [getElem?_setNode]
  have hlt := (Array.getElem?_eq_some_iff.mp hk).1
  by_cases he : k = number
  · rw [he] at hk
    obtain rfl := Option.some.inj (hk.symm.trans hn)
    exact ⟨node, if_pos ⟨he, hlt⟩, .file hb hf⟩
  · exact ⟨other, (if_neg fun hc => he hc.1).trans hk, .same other⟩

theorem setData_extends (number : Nat) (data : Bytes) :
    disk.Extends (disk.setData number data) := by
  unfold setData
  split
  · rename_i hn
    exact (disk.setNode_extends hn rfl rfl).touch number
  · rename_i hn
    exact (disk.setNode_extends hn rfl rfl).touch number
  · exact .refl disk

theorem setMode_extends (number mode : Nat) : disk.Extends (disk.setMode number mode) := by
  unfold setMode
  split
  · rename_i hn
    exact disk.setNode_extends hn rfl rfl
  · rename_i hn
    exact disk.setNode_extends hn rfl rfl
  · split
    · exact ⟨.of_nodes rfl, rfl⟩
    · exact .refl disk
  · exact .refl disk

theorem copyData_extends (source target : Nat) : disk.Extends (disk.copyData source target) := by
  unfold copyData
  split
  · rename_i hn
    exact (disk.setNode_extends hn rfl rfl).touch target
  · rename_i hn
    exact (disk.setNode_extends hn rfl rfl).touch target
  · exact disk.setData_extends target _
  · exact .refl disk

theorem makeDirectory_extends (path : Bytes) :
    disk.Extends (left (makeDirectory path disk)) := by
  unfold makeDirectory
  cases hl : disk.locate false path with
  | error cause => exact .refl disk
  | ok place =>
    dsimp only
    cases hn : place.node with
    | some number => exact .refl disk
    | none => exact (addNode_adds (resolve_place_free hl hn) _).extends

theorem makeDirectories_extends (path : Bytes) :
    disk.Extends (left (makeDirectories path disk)) := by
  have hfirst := disk.makeDirectory_extends path
  rw [makeDirectories]
  split
  · exact .refl disk
  · split
    · rename_i made hm
      rwa [hm] at hfirst
    · split
      · exact .refl disk
      · rename_i above habove
        have := Pathname.length_parent_lt habove
        have hready := makeDirectories_extends above
        dsimp only
        split
        · rename_i hm
          rwa [hm] at hready
        · rename_i ready hm
          rw [hm] at hready
          change disk.Extends ready at hready
          have hlast := hready.trans (ready.makeDirectory_extends path)
          split
          · rename_i made hm
            rwa [hm] at hlast
          · split
            · exact hready
            · exact hready
    · split
      · exact .refl disk
      · exact .refl disk
termination_by path.length

theorem openFile_extends (path : Bytes) (mode : Nat) :
    disk.Extends (left (openFile path mode disk)) := by
  unfold openFile
  dsimp only
  split
  · exact .refl disk
  · rename_i place hp
    split
    · exact .refl disk
    · split
      · rename_i hn
        exact (addNode_adds (resolve_place_free hp hn) _).extends
      · split
        · exact .refl disk
        · exact .refl disk

theorem write_extends (path data : Bytes) (mode : Nat) :
    disk.Extends (left (write path data mode disk)) := by
  have hopen := disk.openFile_extends path mode
  unfold write
  cases ho : openFile path mode disk with
  | error cause left => rwa [ho] at hopen
  | ok number opened =>
    rw [ho] at hopen
    exact hopen.trans (opened.setData_extends number data)

theorem copy_extends (source target : Bytes) :
    disk.Extends (left (copy source target disk)) := by
  unfold copy
  split
  · exact .refl disk
  · rename_i number node hl
    split
    · exact .refl disk
    · rename_i mode hmode
      have hopen := disk.openFile_extends target mode
      split
      · rename_i hm
        rwa [hm] at hopen
      · rename_i other opened hm
        rw [hm] at hopen
        have hemptied := (hopen.trans (opened.setData_extends other [])).trans
          ((opened.setData other []).setMode_extends other mode)
        split
        · exact hemptied
        · exact hemptied.trans (copyData_extends _ number other)

end Changes

inductive Addition where
  | directory (path : Bytes)
  | directories (path : Bytes)
  | file (path data : Bytes) (mode : Nat)
  | copy (source target : Bytes)

def Addition.change : Addition → Change Unit
  | directory path => makeDirectory path
  | directories path => makeDirectories path
  | file path data mode => write path data mode
  | copy source target => Disk.copy source target

/-- **An addition takes nothing away, however far it gets.** -/
theorem Addition.extends (addition : Addition) (disk : Disk) :
    disk.Extends (left (addition.change disk)) := by
  cases addition with
  | directory path => exact disk.makeDirectory_extends path
  | directories path => exact disk.makeDirectories_extends path
  | file path data mode => exact disk.write_extends path data mode
  | copy source target => exact disk.copy_extends source target

end Disk

end FirmwareBuild
