import FirmwareBuild.Proofs.DiskGrowth

/-! # Paths in trees

Without links a path is followed in one go, and where it leads is a relation on
its names (`along_iff_leads`). Where it leads to no node there is a free place, and
once a node is added at that place the same path leads to it. -/

namespace FirmwareBuild.Disk

variable {onLink : Nat → Bytes → List Bytes → Except IoError Place} {followsLast : Bool}
  {disk : Disk}

/-- One name of a path in a tree. -/
theorem along_cons (h : disk.IsTree) (directory : Nat) (name : Bytes) (rest : List Bytes) :
    along onLink followsLast disk directory (name :: rest) =
      match disk.nodes[directory]? with
      | some (.directory parent entries) =>
        if name = Pathname.here then along onLink followsLast disk directory rest
        else if name = Pathname.up then along onLink followsLast disk parent rest
        else if name.length > maxName then .error .nameTooLong
        else match entries.lookup name with
          | none => if rest.isEmpty then .ok { directory, name, node := none } else .error .notFound
          | some number =>
            if rest.isEmpty then .ok { directory, name, node := some number }
            else along onLink followsLast disk number rest
      | some (.removed parent) =>
        if name = Pathname.here then along onLink followsLast disk directory rest
        else if name = Pathname.up then along onLink followsLast disk parent rest
        else .error .notFound
      | _ => .error .notADirectory := by
  rw [along]
  cases hd : disk.nodes[directory]? with
  | none => rfl
  | some node =>
    cases node with
    | directory parent entries =>
      simp only
      cases hl : entries.lookup name with
      | none => rfl
      | some number =>
        -- the node of the name is no link
        dsimp only
        have hlink (target : Bytes) : disk.nodes[number]? ≠ some (.link target) := h.not_link
        cases hn : disk.nodes[number]? with
        | none => cases rest <;> rfl
        | some child =>
          cases child with
          | link target => exact absurd hn (hlink target)
          | _ => cases rest <;> rfl
    | _ => rfl

def above? (disk : Disk) (number : Nat) : Option Nat :=
  (disk.nodes[number]?).bind Node.above?

structure IsOrdinary (name : Bytes) : Prop where
  notHere : name ≠ Pathname.here
  notUp : name ≠ Pathname.up
  short : name.length ≤ maxName

/-- Names lead from a directory to a place where no link is on the way. -/
inductive Leads (disk : Disk) : Nat → List Bytes → Place → Prop where
  | stop (directory : Nat) :
    Leads disk directory [] { directory, name := Pathname.here, node := some directory }
  | here {directory parent : Nat} {rest : List Bytes} {place : Place}
      (above : disk.above? directory = some parent) (more : Leads disk directory rest place) :
    Leads disk directory (Pathname.here :: rest) place
  | up {directory parent : Nat} {rest : List Bytes} {place : Place}
      (above : disk.above? directory = some parent) (more : Leads disk parent rest place) :
    Leads disk directory (Pathname.up :: rest) place
  | last {directory parent : Nat} {entries : List (Bytes × Nat)} {name : Bytes}
      (holds : disk.nodes[directory]? = some (.directory parent entries))
      (ordinary : IsOrdinary name) :
    Leads disk directory [name] { directory, name, node := entries.lookup name }
  | down {directory number : Nat} {name : Bytes} {rest : List Bytes} {place : Place}
      (child : disk.child? directory name = some number) (ordinary : IsOrdinary name)
      (goesOn : rest ≠ []) (more : Leads disk number rest place) :
    Leads disk directory (name :: rest) place

theorem leads_of_along (h : disk.IsTree) {place : Place} :
    ∀ {names : List Bytes} {directory : Nat},
      along onLink followsLast disk directory names = .ok place → disk.Leads directory names place
  | [], directory, hp => by
    obtain rfl := Except.ok.inj hp
    exact .stop directory
  | name :: rest, directory, hp => by
    rw [along_cons h] at hp
    split at hp
    · rename_i parent entries hd
      have habove : disk.above? directory = some parent := by rw [above?, hd]; rfl
      split at hp
      · subst_vars
        exact .here habove (leads_of_along h hp)
      · rename_i hhere
        split at hp
        · subst_vars
          exact .up habove (leads_of_along h hp)
        · rename_i hup
          split at hp
          · cases hp
          · rename_i hlong
            have hordinary : IsOrdinary name := ⟨hhere, hup, Nat.le_of_not_lt hlong⟩
            split at hp
            · rename_i hl
              split at hp
              · rename_i hrest
                obtain rfl := Except.ok.inj hp
                rw [List.isEmpty_iff.mp hrest, ← hl]
                exact .last hd hordinary
              · cases hp
            · rename_i number hl
              split at hp
              · rename_i hrest
                obtain rfl := Except.ok.inj hp
                rw [List.isEmpty_iff.mp hrest, ← hl]
                exact .last hd hordinary
              · rename_i hrest
                have hchild : disk.child? directory name = some number := by
                  rw [child?, hd]
                  exact hl
                exact .down hchild hordinary (fun he => hrest (he ▸ rfl)) (leads_of_along h hp)
    · rename_i parent hd
      have habove : disk.above? directory = some parent := by rw [above?, hd]; rfl
      split at hp
      · subst_vars
        exact .here habove (leads_of_along h hp)
      · split at hp
        · subst_vars
          exact .up habove (leads_of_along h hp)
        · cases hp
    · cases hp

theorem above?_eq_some {number parent : Nat} (h : disk.above? number = some parent) :
    (∃ entries, disk.nodes[number]? = some (.directory parent entries)) ∨
      disk.nodes[number]? = some (.removed parent) := by
  obtain ⟨node, hn, ha⟩ := Option.bind_eq_some_iff.mp h
  cases node with
  | directory above entries => exact .inl ⟨entries, Option.some.inj ha ▸ hn⟩
  | removed above => exact .inr (Option.some.inj ha ▸ hn)
  | _ => cases ha

theorem child?_eq_some {number found : Nat} {name : Bytes}
    (h : disk.child? number name = some found) : ∃ parent entries,
      disk.nodes[number]? = some (.directory parent entries) ∧
        entries.lookup name = some found := by
  obtain ⟨node, hn, hl⟩ := Option.bind_eq_some_iff.mp h
  cases node with
  | directory parent entries => exact ⟨parent, entries, hn, hl⟩
  | _ => cases hl

theorem along_of_leads (h : disk.IsTree) {names : List Bytes} {directory : Nat} {place : Place}
    (hl : disk.Leads directory names place) :
    along onLink followsLast disk directory names = .ok place := by
  have hup : Pathname.up ≠ Pathname.here := by decide
  induction hl with
  | stop directory => rfl
  | here above more ih =>
    rw [along_cons h]
    rcases above?_eq_some above with ⟨entries, hd⟩ | hd
    · rw [hd]
      exact (if_pos rfl).trans ih
    · rw [hd]
      exact (if_pos rfl).trans ih
  | up above more ih =>
    rw [along_cons h]
    rcases above?_eq_some above with ⟨entries, hd⟩ | hd
    · rw [hd]
      exact (if_neg hup).trans ((if_pos rfl).trans ih)
    · rw [hd]
      exact (if_neg hup).trans ((if_pos rfl).trans ih)
  | @last directory parent entries name holds ordinary =>
    rw [along_cons h, holds]
    dsimp only
    rw [if_neg ordinary.notHere, if_neg ordinary.notUp, if_neg (Nat.not_lt.mpr ordinary.short)]
    cases entries.lookup name with
    | none => rfl
    | some number => rfl
  | down child ordinary goesOn more ih =>
    obtain ⟨parent, entries, hd, hl⟩ := child?_eq_some child
    rw [along_cons h, hd]
    dsimp only
    rw [if_neg ordinary.notHere, if_neg ordinary.notUp, if_neg (Nat.not_lt.mpr ordinary.short), hl]
    dsimp only
    rw [if_neg fun he => goesOn (List.isEmpty_iff.mp he)]
    exact ih

/-- In a tree, following a path is all there is to where it leads. -/
theorem along_iff_leads (h : disk.IsTree) {names : List Bytes} {directory : Nat} {place : Place} :
    along onLink followsLast disk directory names = .ok place ↔
      disk.Leads directory names place :=
  ⟨leads_of_along h, along_of_leads h⟩

/-- Where a path leads to no node there is a free place. -/
theorem Leads.free {names : List Bytes} {directory : Nat} {place : Place}
    (hl : disk.Leads directory names place) (hnone : place.node = none) : disk.IsFree place := by
  induction hl with
  | stop directory => cases hnone
  | here above more ih => exact ih hnone
  | up above more ih => exact ih hnone
  | last holds ordinary => exact ⟨_, _, holds, hnone⟩
  | down child ordinary goesOn more ih => exact ih hnone

theorem IsTree.above?_lt (h : disk.IsTree) {number parent : Nat}
    (ha : disk.above? number = some parent) : parent < disk.nodes.size := by
  rcases above?_eq_some ha with ⟨entries, hd⟩ | hd
  · exact h.mentioned_lt hd List.mem_cons_self
  · exact h.mentioned_lt hd List.mem_cons_self

/-- Where a path leads to a number there is a node. -/
theorem Leads.node_lt (h : disk.IsTree) {names : List Bytes} {directory number : Nat}
    {place : Place} (hl : disk.Leads directory names place) (hlt : directory < disk.nodes.size)
    (hsome : place.node = some number) : number < disk.nodes.size := by
  induction hl with
  | stop directory => exact Option.some.inj hsome ▸ hlt
  | here above more ih => exact ih hlt hsome
  | up above more ih => exact ih (h.above?_lt above) hsome
  | last holds ordinary =>
    exact h.mentioned_lt holds (List.mem_cons_of_mem _ (lookup_mem hsome))
  | down child ordinary goesOn more ih => exact ih (h.child?_lt child) hsome

theorem Adds.above? {old new : Disk} {place : Place} {node : Node} (h : old.Adds place node new)
    {number parent : Nat} (ha : old.above? number = some parent) :
    new.above? number = some parent := by
  by_cases hp : number = place.directory
  · obtain ⟨above, entries, hold, -, hnew⟩ := h.named
    rw [Disk.above?, hp, hold] at ha
    rw [Disk.above?, hp, hnew]
    exact ha
  · have hlt : number < old.nodes.size := by
      rcases above?_eq_some ha with ⟨entries, hd⟩ | hd
      · exact (Array.getElem?_eq_some_iff.mp hd).1
      · exact (Array.getElem?_eq_some_iff.mp hd).1
    rw [Disk.above?, h.others number hp (Nat.ne_of_lt hlt)]
    exact ha

/-- Names that led to a free place lead to the node that is added there. -/
theorem Adds.leads {old new : Disk} {place : Place} {node : Node} (h : old.Adds place node new)
    {names : List Bytes} {directory : Nat} {found : Place}
    (hl : old.Leads directory names found) (hfound : found = place) (hnone : place.node = none) :
    new.Leads directory names { place with node := some old.nodes.size } := by
  induction hl with
  | stop directory => subst hfound; cases hnone
  | here above more ih => exact .here (h.above? above) (ih hfound)
  | up above more ih => exact .up (h.above? above) (ih hfound)
  | last holds ordinary =>
    subst hfound
    obtain ⟨above, entries, hold, -, hnew⟩ := h.named
    have hlast := Leads.last hnew ordinary
    rw [Text.lookup_putNamed, if_pos rfl] at hlast
    exact hlast
  | down child ordinary goesOn more ih =>
    exact .down (h.child?_kept child) ordinary goesOn (ih hfound)

/-! ## Whole paths -/

theorem IsTree.start_lt (h : disk.IsTree) (path : Bytes) :
    start disk.cwd path < disk.nodes.size := by
  unfold start
  split
  · exact h.root_lt
  · exact h.working

/-- What leads somewhere is a path that can be followed, and following it leads there. -/
theorem resolve_ok {path : Bytes} {names : List Bytes} {place : Place}
    (hp : disk.resolve followsLast path names = .ok place) :
    ∃ onLink, along onLink followsLast disk (start disk.cwd path) names = .ok place := by
  unfold resolve at hp
  split at hp
  · cases hp
  · split at hp
    · cases hp
    · split at hp
      · cases hp
      · exact ⟨_, hp⟩

theorem resolve_free (h : disk.IsTree) {path : Bytes} {names : List Bytes} {place : Place}
    (hp : disk.resolve followsLast path names = .ok place) (hnone : place.node = none) :
    disk.IsFree place := by
  obtain ⟨onLink, hp⟩ := resolve_ok hp
  exact ((along_iff_leads h).mp hp).free hnone

theorem resolve_node_lt (h : disk.IsTree) {path : Bytes} {names : List Bytes} {place : Place}
    {number : Nat} (hp : disk.resolve followsLast path names = .ok place)
    (hsome : place.node = some number) : number < disk.nodes.size := by
  obtain ⟨onLink, hp⟩ := resolve_ok hp
  exact ((along_iff_leads h).mp hp).node_lt h (h.start_lt path) hsome

theorem Adds.resolve {old new : Disk} {place : Place} {node : Node} (h : old.Adds place node new)
    (ht : old.IsTree) (ht' : new.IsTree) {path : Bytes} {names : List Bytes}
    (hp : old.resolve followsLast path names = .ok place) (hnone : place.node = none) :
    new.resolve followsLast path names = .ok { place with node := some old.nodes.size } := by
  unfold Disk.resolve at hp ⊢
  split at hp
  · cases hp
  · rw [if_neg ‹_›]
    split at hp
    · cases hp
    · rw [if_neg ‹_›]
      split at hp
      · cases hp
      · rw [if_neg ‹_›, h.working]
        have hleads := h.leads ((along_iff_leads ht).mp hp) rfl hnone
        exact (along_iff_leads ht').mpr hleads

/-- Where nothing exists a path leads nowhere or to a free place. -/
theorem pathExists_eq_false (h : disk.IsTree) {path : Bytes} (hp : disk.pathExists path = false)
    {place : Place} (hr : disk.resolve true path (strictNames path) = .ok place) :
    place.node = none := by
  cases hn : place.node with
  | none => rfl
  | some number =>
    have hlt := resolve_node_lt h hr hn
    rw [pathExists, node?, lookup, look, hr] at hp
    dsimp only [bind, Except.bind] at hp
    rw [hn] at hp
    dsimp only at hp
    rw [Array.getElem?_eq_getElem hlt] at hp
    cases hp

end FirmwareBuild.Disk
