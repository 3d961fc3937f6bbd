import FirmwareBuild.Proofs.FileTrees

/-! # Paths in file trees

In a file tree what stands at its locations says all about a path: it can be followed
exactly if directories stand on its way, and it leads to what stands at its location
(`IsFileTree.resolve_iff`, `IsFileTree.resolve_node`). -/

namespace FirmwareBuild.Disk

namespace IsFileTree
variable {disk : Disk} (h : disk.IsFileTree)
include h

/-! ## Following names -/

theorem leads_of_way {names : List Bytes} {location : Location} {directory : Nat}
    (hd : disk.numberAt? root location = some directory)
    (hway : ∀ l ∈ (Pathname.way location names).dropLast, disk.entryAt? l = some .directory)
    (hshort : ∀ name ∈ names, name.length ≤ maxName) :
    ∃ place, disk.Leads directory names place := by
  induction names generalizing location directory with
  | nil => exact ⟨_, .stop directory⟩
  | cons name rest ih =>
    rw [Pathname.dropLast_way_cons] at hway
    obtain ⟨number, parent, entries, hn, hnode⟩ := h.directory_at (hway _ List.mem_cons_self)
    obtain rfl := Option.some.inj (hd.symm.trans hn)
    have habove : disk.above? directory = some parent := by
      rw [above?, hnode]
      rfl
    have hrest : ∀ l ∈ (Pathname.way (Pathname.stepTo location name) rest).dropLast,
        disk.entryAt? l = some .directory := fun l hl => hway l (List.mem_cons_of_mem _ hl)
    have hshortRest : ∀ other ∈ rest, other.length ≤ maxName :=
      fun other ho => hshort other (List.mem_cons_of_mem _ ho)
    by_cases hhere : name = Pathname.here
    · subst hhere
      rw [Pathname.stepTo_here] at hrest
      obtain ⟨place, hleads⟩ := ih hd hrest hshortRest
      exact ⟨place, .here habove hleads⟩
    · by_cases hup : name = Pathname.up
      · subst hup
        rw [Pathname.stepTo_up] at hrest
        obtain ⟨place, hleads⟩ := ih (h.numberAt?_dropLast hd habove) hrest hshortRest
        exact ⟨place, .up habove hleads⟩
      · have hordinary : IsOrdinary name := ⟨hhere, hup, hshort name List.mem_cons_self⟩
        cases rest with
        | nil => exact ⟨_, .last hnode hordinary⟩
        | cons next more =>
          -- more names follow, so that the name leads to a directory
          rw [Pathname.stepTo_of_ne hhere hup] at hrest
          have hinner := hrest (location ++ [name]) (by
            rw [Pathname.dropLast_way_cons]
            exact List.mem_cons_self)
          obtain ⟨child, -, -, hc, -⟩ := h.directory_at hinner
          obtain ⟨middle, hm, hchild⟩ := numberAt?_concat_eq_some.mp hc
          obtain rfl := Option.some.inj (hd.symm.trans hm)
          obtain ⟨place, hleads⟩ := ih hc hrest hshortRest
          exact ⟨place, .down hchild hordinary (List.cons_ne_nil _ _) hleads⟩

omit h in
theorem isSome_above? {location : Location} {directory parent : Nat}
    (hd : disk.numberAt? root location = some directory)
    (ha : disk.above? directory = some parent) : disk.entryAt? location = some .directory :=
  entryAt?_eq_directory.mpr ⟨directory, hd, Option.isSome_of_eq_some ha⟩

omit h in
theorem way_step {location : Location} {name : Bytes} {rest : List Bytes}
    (hfirst : disk.entryAt? location = some .directory) (hname : name.length ≤ maxName)
    (hmore : (∀ l ∈ (Pathname.way (Pathname.stepTo location name) rest).dropLast,
      disk.entryAt? l = some .directory) ∧ ∀ other ∈ rest, other.length ≤ maxName) :
    (∀ l ∈ (Pathname.way location (name :: rest)).dropLast, disk.entryAt? l = some .directory) ∧
      ∀ other ∈ name :: rest, other.length ≤ maxName := by
  rw [Pathname.dropLast_way_cons]
  exact ⟨List.forall_mem_cons.mpr ⟨hfirst, hmore.1⟩, List.forall_mem_cons.mpr ⟨hname, hmore.2⟩⟩

theorem way_of_leads {names : List Bytes} {directory : Nat} {place : Place} {location : Location}
    (hl : disk.Leads directory names place)
    (hd : disk.numberAt? root location = some directory) :
    (∀ l ∈ (Pathname.way location names).dropLast, disk.entryAt? l = some .directory) ∧
      ∀ name ∈ names, name.length ≤ maxName := by
  induction hl generalizing location with
  | stop directory => exact ⟨nofun, nofun⟩
  | here above more ih =>
    refine way_step (isSome_above? hd above) (by decide) ?_
    rw [Pathname.stepTo_here]
    exact ih hd
  | up above more ih =>
    refine way_step (isSome_above? hd above) (by decide) ?_
    rw [Pathname.stepTo_up]
    exact ih (h.numberAt?_dropLast hd above)
  | last holds ordinary =>
    exact way_step (isSome_above? hd (by rw [above?, holds]; rfl)) ordinary.short ⟨nofun, nofun⟩
  | down child ordinary goesOn more ih =>
    obtain ⟨parent, entries, hn, -⟩ := child?_eq_some child
    refine way_step (isSome_above? hd (by rw [above?, hn]; rfl)) ordinary.short ?_
    rw [Pathname.stepTo_of_ne ordinary.notHere ordinary.notUp]
    exact ih (numberAt?_concat_eq_some.mpr ⟨_, hd, child⟩)

/-- Where nothing but directories stands on the way, a missing one is all that can be wrong. -/
theorem along_unblocked {onLink : Nat → Bytes → List Bytes → Except IoError Place}
    {followsLast : Bool} {names : List Bytes} {location : Location} {directory : Nat}
    (hd : disk.numberAt? root location = some directory)
    (hfirst : disk.entryAt? location = some .directory)
    (hway : ∀ l ∈ (Pathname.way location names).dropLast,
      disk.entryAt? l = none ∨ disk.entryAt? l = some .directory)
    (hshort : ∀ name ∈ names, name.length ≤ maxName) :
    (∃ place, along onLink followsLast disk directory names = .ok place) ∨
      along onLink followsLast disk directory names = .error .notFound := by
  induction names generalizing location directory with
  | nil => exact .inl ⟨_, rfl⟩
  | cons name rest ih =>
    obtain ⟨number, parent, entries, hn, hnode⟩ := h.directory_at hfirst
    obtain rfl := Option.some.inj (hd.symm.trans hn)
    have habove : disk.above? directory = some parent := by
      rw [above?, hnode]
      rfl
    have hrest : ∀ l ∈ (Pathname.way (Pathname.stepTo location name) rest).dropLast,
        disk.entryAt? l = none ∨ disk.entryAt? l = some .directory := by
      rw [Pathname.dropLast_way_cons] at hway
      exact fun l hl => hway l (List.mem_cons_of_mem _ hl)
    have hshortRest : ∀ other ∈ rest, other.length ≤ maxName :=
      fun other ho => hshort other (List.mem_cons_of_mem _ ho)
    rw [along_cons h.tree, hnode]
    dsimp only
    by_cases hhere : name = Pathname.here
    · rw [if_pos hhere]
      rw [hhere, Pathname.stepTo_here] at hrest
      exact ih hd hfirst hrest hshortRest
    · rw [if_neg hhere]
      by_cases hup : name = Pathname.up
      · rw [if_pos hup]
        rw [hup, Pathname.stepTo_up] at hrest
        have hparent := h.numberAt?_dropLast hd habove
        refine ih hparent ?_ hrest hshortRest
        cases location using List.reverseRecOn with
        | nil => exact hfirst
        | append_singleton front last =>
          rw [List.dropLast_concat]
          exact h.directory_above (Option.isSome_of_eq_some hfirst)
      · rw [if_neg hup, if_neg (Nat.not_lt.mpr (hshort name List.mem_cons_self))]
        rw [Pathname.stepTo_of_ne hhere hup] at hrest
        cases hl : entries.lookup name with
        | none =>
          dsimp only
          split
          · exact .inl ⟨_, rfl⟩
          · exact .inr rfl
        | some child =>
          dsimp only
          cases rest with
          | nil => exact .inl ⟨_, rfl⟩
          | cons next more =>
            have hchild : disk.child? directory name = some child := by
              rw [child?, hnode]
              exact hl
            have hnumber := numberAt?_concat_eq_some.mpr ⟨directory, hd, hchild⟩
            rw [if_neg (by simp)]
            refine ih hnumber ?_ hrest hshortRest
            -- there is something of this name, and names behind it, so that it is no file
            refine (hrest (location ++ [name]) ?_).resolve_left ?_
            · rw [Pathname.dropLast_way_cons]
              exact List.mem_cons_self
            · rw [← Option.not_isSome_iff_eq_none, entryAt?_isSome h.tree, hnumber]
              simp

end IsFileTree

/-! ## Whole paths -/

/-- A path is one that can be followed, wherever that leads. -/
structure Fits (path : Bytes) : Prop where
  noZero : (0 : UInt8) ∉ path
  short : path.length ≤ maxPath
  names : ∀ name ∈ Pathname.names path, name.length ≤ maxName

/-- A path can be followed up to its last name. -/
structure IsReachable (disk : Disk) (path : Bytes) : Prop where
  notEmpty : path ≠ []
  fits : Fits path
  way : ∀ l ∈ (disk.wayOf path).dropLast, disk.entryAt? l = some .directory

instance (path : Bytes) : Decidable (Fits path) :=
  decidable_of_iff ((0 : UInt8) ∉ path ∧ path.length ≤ maxPath ∧
      ∀ name ∈ Pathname.names path, name.length ≤ maxName)
    ⟨fun ⟨h₁, h₂, h₃⟩ => ⟨h₁, h₂, h₃⟩, fun ⟨h₁, h₂, h₃⟩ => ⟨h₁, h₂, h₃⟩⟩

instance (disk : Disk) (path : Bytes) : Decidable (disk.IsReachable path) :=
  decidable_of_iff (path ≠ [] ∧ Fits path ∧
      ∀ l ∈ (disk.wayOf path).dropLast, disk.entryAt? l = some .directory)
    ⟨fun ⟨h₁, h₂, h₃⟩ => ⟨h₁, h₂, h₃⟩, fun ⟨h₁, h₂, h₃⟩ => ⟨h₁, h₂, h₃⟩⟩

theorem resolve_leads {disk : Disk} (ht : disk.IsTree) {followsLast : Bool} {path : Bytes}
    {names : List Bytes} {place : Place} : disk.resolve followsLast path names = .ok place ↔
      path ≠ [] ∧ (0 : UInt8) ∉ path ∧ path.length ≤ maxPath ∧
        disk.Leads (start disk.cwd path) names place := by
  unfold resolve
  constructor
  · intro hp
    split at hp
    · cases hp
    · rename_i hzero
      split at hp
      · cases hp
      · rename_i hempty
        split at hp
        · cases hp
        · rename_i hlong
          exact ⟨fun he => hempty (List.isEmpty_iff.mpr he), by simpa using hzero,
            Nat.le_of_not_lt hlong, (along_iff_leads ht).mp hp⟩
  · rintro ⟨hne, hzero, hshort, hleads⟩
    rw [if_neg (by simpa using hzero), if_neg (by simpa using hne),
      if_neg (Nat.not_lt.mpr hshort)]
    exact (along_iff_leads ht).mpr hleads

namespace IsFileTree
variable {disk : Disk} (h : disk.IsFileTree)
include h

/-- **A path can be followed exactly if directories stand on its way.** -/
theorem resolve_iff {followsLast : Bool} {path : Bytes} {names : List Bytes} :
    (∃ place, disk.resolve followsLast path names = .ok place) ↔
      path ≠ [] ∧ (0 : UInt8) ∉ path ∧ path.length ≤ maxPath ∧
        (∀ l ∈ (Pathname.way (disk.startAt path) names).dropLast,
          disk.entryAt? l = some .directory) ∧ ∀ name ∈ names, name.length ≤ maxName := by
  simp only [resolve_leads h.tree]
  have hstart := h.numberAt?_startAt path
  constructor
  · rintro ⟨place, hne, hzero, hshort, hleads⟩
    exact ⟨hne, hzero, hshort, h.way_of_leads hleads hstart⟩
  · rintro ⟨hne, hzero, hshort, hway, hnames⟩
    obtain ⟨place, hleads⟩ := h.leads_of_way hstart hway hnames
    exact ⟨place, hne, hzero, hshort, hleads⟩

/-- **It leads to what stands at its location.** -/
theorem resolve_node {followsLast : Bool} {path : Bytes} {names : List Bytes} {place : Place}
    (hp : disk.resolve followsLast path names = .ok place) :
    place.node = disk.numberAt? root (Pathname.follow (disk.startAt path) names) := by
  obtain ⟨-, -, -, hleads⟩ := (resolve_leads h.tree).mp hp
  obtain ⟨hsome, hnone⟩ := h.leads_found hleads (h.numberAt?_startAt path)
  cases hn : place.node with
  | some number => exact (hsome number hn).symm
  | none =>
    obtain ⟨-, -, above, ha, he⟩ := hnone hn
    obtain ⟨parent, entries, hd, hl⟩ := hleads.free hn
    rw [he]
    symm
    rw [Option.eq_none_iff_forall_ne_some]
    intro number hnumber
    obtain ⟨middle, hm, hc⟩ := numberAt?_concat_eq_some.mp hnumber
    obtain rfl := Option.some.inj (ha.symm.trans hm)
    rw [child?, hd] at hc
    cases hl.symm.trans hc

theorem resolve_unblocked {followsLast : Bool} {path : Bytes} (hne : path ≠ []) (hf : Fits path)
    (hway : ∀ l ∈ (disk.wayOf path).dropLast,
      disk.entryAt? l = none ∨ disk.entryAt? l = some .directory) :
    (∃ place, disk.locate followsLast path = .ok place) ∨
      disk.locate followsLast path = .error .notFound := by
  unfold locate resolve
  rw [if_neg (by simpa using hf.noZero), if_neg (by simpa using hne),
    if_neg (Nat.not_lt.mpr hf.short)]
  exact h.along_unblocked (h.numberAt?_startAt path) (h.directory_startAt path) hway hf.names

theorem locate_iff {followsLast : Bool} {path : Bytes} :
    (∃ place, disk.locate followsLast path = .ok place) ↔ disk.IsReachable path := by
  unfold locate
  rw [h.resolve_iff]
  constructor
  · rintro ⟨hne, hzero, hshort, hway, hnames⟩
    exact ⟨hne, ⟨hzero, hshort, hnames⟩, hway⟩
  · rintro ⟨hne, ⟨hzero, hshort, hnames⟩, hway⟩
    exact ⟨hne, hzero, hshort, hway, hnames⟩

theorem locate_node {followsLast : Bool} {path : Bytes} {place : Place}
    (hp : disk.locate followsLast path = .ok place) :
    place.node = disk.numberAt? root (disk.locationOf path) := by
  rw [h.locationOf_eq]
  exact h.resolve_node hp

/-- A path without a slash at its end leads to the node at its location, if it can be followed. -/
theorem lookup_iff {path : Bytes} (hslash : Pathname.endsInSlash path = false) {number : Nat}
    {node : Node} : disk.lookup path = .ok (number, node) ↔
      disk.IsReachable path ∧ disk.numberAt? root (disk.locationOf path) = some number ∧
        disk.nodes[number]? = some node := by
  have hreach : (∃ place, disk.locate true path = .ok place) ↔ disk.IsReachable path :=
    h.locate_iff
  unfold lookup look
  rw [strictNames_eq hslash]
  change (disk.locate true path >>= _) = _ ↔ _
  rw [← hreach]
  constructor
  · intro hl
    cases hp : disk.locate true path with
    | error cause => rw [hp] at hl; cases hl
    | ok place =>
      rw [hp] at hl
      dsimp only [bind, Except.bind] at hl
      rw [h.locate_node hp] at hl
      split at hl
      · cases hl
      · rename_i found hfound
        split at hl
        · rename_i hn
          cases hl
          exact ⟨⟨place, rfl⟩, hfound, hn⟩
        · cases hl
  · rintro ⟨⟨place, hp⟩, hl, hn⟩
    rw [hp]
    dsimp only [bind, Except.bind]
    rw [h.locate_node hp, hl]
    dsimp only
    rw [hn]

theorem pathExists_iff {path : Bytes} (hslash : Pathname.endsInSlash path = false) :
    disk.pathExists path = true ↔
      disk.IsReachable path ∧ (disk.entryAt? (disk.locationOf path)).isSome := by
  have hfound : disk.pathExists path = true ↔
      ∃ number node, disk.lookup path = .ok (number, node) := by
    rw [pathExists, node?]
    cases disk.lookup path with
    | error cause => simp
    | ok found => exact ⟨fun _ => ⟨found.1, found.2, rfl⟩, fun _ => rfl⟩
  rw [hfound, entryAt?_isSome h.tree, Option.isSome_iff_exists]
  constructor
  · rintro ⟨number, node, hl⟩
    obtain ⟨hreach, hnumber, -⟩ := (h.lookup_iff hslash).mp hl
    exact ⟨hreach, number, hnumber⟩
  · rintro ⟨hreach, number, hnumber⟩
    have hlt := h.tree.numberAt?_lt h.tree.root_lt hnumber
    exact ⟨number, _, (h.lookup_iff hslash).mpr
      ⟨hreach, hnumber, Array.getElem?_eq_getElem hlt⟩⟩

omit h in
/-- A slash at the end asks for a directory and leads nowhere else. -/
theorem way_strictNames (location : Location) (path : Bytes) :
    Pathname.follow location (strictNames path) = Pathname.follow location (Pathname.names path) ∧
      (∀ l ∈ (Pathname.way location (Pathname.names path)).dropLast,
        l ∈ (Pathname.way location (strictNames path)).dropLast) ∧
      ∀ l ∈ (Pathname.way location (strictNames path)).dropLast,
        l ∈ Pathname.way location (Pathname.names path) := by
  unfold strictNames
  split
  · rw [Pathname.follow_append, Pathname.way_concat, List.dropLast_concat]
    exact ⟨Pathname.stepTo_here, Pathname.dropLast_way_subset, fun _ hl => hl⟩
  · rw [List.append_nil]
    exact ⟨rfl, fun _ hl => hl, Pathname.dropLast_way_subset⟩

theorem isDirectory_iff {path : Bytes} : disk.isDirectory path = true ↔
    disk.IsReachable path ∧ disk.entryAt? (disk.locationOf path) = some .directory := by
  obtain ⟨hfollow, hless, hmore⟩ := way_strictNames (disk.startAt path) path
  have hplace {place : Place} (hp : disk.resolve true path (strictNames path) = .ok place) :
      place.node = disk.numberAt? root (disk.locationOf path) := by
    rw [h.resolve_node hp, hfollow, h.locationOf_eq]
  unfold isDirectory node? lookup look
  constructor
  · intro hd
    cases hp : disk.resolve true path (strictNames path) with
    | error cause => rw [hp] at hd; cases hd
    | ok place =>
      obtain ⟨hne, hzero, hshort, hway, hnames⟩ := h.resolve_iff.mp ⟨place, hp⟩
      refine ⟨⟨hne, ⟨hzero, hshort, fun name hm => hnames name (List.mem_append_left _ hm)⟩,
        fun l hl => hway l (hless l hl)⟩, ?_⟩
      rw [hp] at hd
      dsimp only [bind, Except.bind] at hd
      rw [hplace hp] at hd
      rw [entryAt?]
      cases hl : disk.numberAt? root (disk.locationOf path) with
      | none => rw [hl] at hd; cases hd
      | some number =>
        rw [hl] at hd
        dsimp only at hd
        rw [Option.bind_some]
        cases hn : disk.nodes[number]? with
        | none => rw [hn] at hd; cases hd
        | some node =>
          rw [hn] at hd
          cases node with
          | directory parent entries => rfl
          | removed parent => rfl
          | _ => cases hd
  · rintro ⟨⟨hne, hf, hway⟩, hd⟩
    have hall : ∀ l ∈ disk.wayOf path, disk.entryAt? l = some .directory := by
      intro l hl
      rw [wayOf, Pathname.way_eq, ← h.locationOf_eq] at hl
      rcases List.mem_append.mp hl with hl | hl
      · exact hway l hl
      · rw [List.mem_singleton.mp hl]
        exact hd
    have hnames : ∀ name ∈ strictNames path, name.length ≤ maxName := by
      intro name hm
      rcases List.mem_append.mp hm with hm | hm
      · exact hf.names name hm
      · split at hm
        · rw [List.mem_singleton.mp hm]
          decide
        · cases hm
    obtain ⟨place, hp⟩ : ∃ place, disk.resolve true path (strictNames path) = .ok place :=
      h.resolve_iff.mpr ⟨hne, hf.noZero, hf.short, fun l hl => hall l (hmore l hl), hnames⟩
    obtain ⟨number, parent, entries, hl, hn⟩ := h.directory_at hd
    rw [hp]
    dsimp only [bind, Except.bind]
    rw [hplace hp, hl]
    dsimp only
    rw [hn]
    rfl

end IsFileTree

end FirmwareBuild.Disk
