import FirmwareBuild.Proofs.FollowedPaths

/-! # Made directories

A path with all directories above it can be made exactly if it can be followed and
nothing but directories stands on its way. They are then on the whole way, also where
it goes up again, and nothing else is different (`makeDirectories_spec`). The
recursion goes from a path to the one above it, which has a start of its octets and
all of its names but the last one. -/

namespace FirmwareBuild

namespace Text

theorem filter_dropWhile {α : Type} (p : α → Bool) (xs : List α) :
    (xs.dropWhile p).filter (fun x => !p x) = xs.filter fun x => !p x := by
  induction xs with
  | nil => rfl
  | cons x rest ih =>
    cases hx : p x with
    | true => simp [hx, ih]
    | false => simp [hx]

theorem filter_dropEnd {α : Type} (p : α → Bool) (xs : List α) :
    (dropEnd p xs).filter (fun x => !p x) = xs.filter fun x => !p x := by
  rw [dropEnd, List.filter_reverse, filter_dropWhile, List.filter_reverse, List.reverse_reverse]

theorem join_prefix {α : Type} (sep : List α) {front pieces : List (List α)}
    (h : front <+: pieces) : join sep front <+: join sep pieces := by
  obtain ⟨back, rfl⟩ := h
  induction front with
  | nil => exact List.nil_prefix
  | cons piece rest ih =>
    cases rest with
    | nil =>
      have hone : join sep [piece] = piece := by simp [join]
      cases back with
      | nil => simp
      | cons next more =>
        rw [hone, List.singleton_append, join_cons_of_ne_nil _ _ (List.cons_ne_nil _ _),
          List.append_assoc]
        exact List.prefix_append _ _
    | cons next more =>
      rw [List.cons_append, join_cons_of_ne_nil _ _ (List.cons_ne_nil _ _),
        join_cons_of_ne_nil sep piece (List.append_ne_nil_of_left_ne_nil (List.cons_ne_nil _ _) _)]
      exact (List.prefix_append_right_inj _).mpr ih

end Text

namespace Pathname

/-! ## The path above another one -/

/-- The names of a path that lead somewhere. -/
def steps (path : Bytes) : List Bytes := (names path).filter (· ≠ here)

/-- A path does not end in the name of the directory itself, unless it has no other name. -/
def EndsPlainly (path : Bytes) : Prop :=
  (names path).getLast? = some here → ∀ name ∈ names path, name = here

theorem steps_eq (path : Bytes) :
    steps path = (Text.split slash path).filter fun piece => !isIdle piece := by
  rw [steps, names, List.filter_filter]
  apply List.filter_congr
  intro piece _
  rw [Bool.eq_iff_iff]
  simp [isIdle, and_comm]

/-- The octets that do not count as a piece of a path: the root or the name of the directory
itself. -/
def startLength (path : Bytes) : Nat :=
  if isAbsolute path || path = here || path.take 2 = here ++ [slash] then 1 else 0

theorem parent?_eq (path : Bytes) : parent? path =
    if (dropIdle (Text.split slash (path.drop (startLength path)))).isEmpty then
      if path.take (startLength path) = here then some [] else none
    else some (path.take (startLength path) ++ Text.join [slash] (dropIdle
      (dropIdle (Text.split slash (path.drop (startLength path)))).dropLast)) := rfl

def IsStart (front back : Bytes) : Prop :=
  front = [] ∨ front = [slash] ∨ front = here ∧ (back = [] ∨ ∃ rest, back = slash :: rest)

theorem isStart_take (path : Bytes) :
    IsStart (path.take (startLength path)) (path.drop (startLength path)) ∧
      (path.take (startLength path) = [] → isAbsolute path = false) := by
  unfold startLength
  split
  · rename_i hstart
    rw [Bool.or_eq_true, Bool.or_eq_true] at hstart
    rcases hstart with (habsolute | hhere) | hdot
    · obtain ⟨rest, rfl⟩ := isAbsolute_iff.mp habsolute
      exact ⟨.inr (.inl rfl), nofun⟩
    · obtain rfl := of_decide_eq_true hhere
      exact ⟨.inr (.inr ⟨rfl, .inl rfl⟩), nofun⟩
    · obtain ⟨rest, rfl⟩ : ∃ rest, path = here ++ slash :: rest := by
        have htwo := of_decide_eq_true hdot
        refine ⟨path.drop 2, ?_⟩
        have hall := List.take_append_drop 2 path
        rw [htwo, List.append_assoc] at hall
        exact hall.symm
      exact ⟨.inr (.inr ⟨rfl, .inr ⟨rest, rfl⟩⟩), nofun⟩
  · rename_i hstart
    rw [Bool.or_eq_true, Bool.or_eq_true, not_or, not_or] at hstart
    exact ⟨.inl rfl, fun _ => Bool.not_eq_true _ ▸ hstart.1.1⟩

theorem names_start {front back : Bytes} (h : IsStart front back) :
    names (front ++ back) = names front ++ names back := by
  have hslash (rest : Bytes) : names (slash :: rest) = names rest := names_append_slash [] rest
  rcases h with rfl | rfl | ⟨rfl, rfl | ⟨rest, rfl⟩⟩
  · rfl
  · exact hslash back
  · rw [List.append_nil, names_nil, List.append_nil]
  · rw [names_append_slash, hslash]

theorem steps_start {front back : Bytes} (h : IsStart front back) :
    steps (front ++ back) = steps back := by
  have hfront : (names front).filter (· ≠ here) = [] := by
    rcases h with rfl | rfl | ⟨rfl, -⟩
    · rfl
    · decide
    · decide
  rw [steps, names_start h, List.filter_append, hfront, List.nil_append, steps]

/-- A start of a path can be in front of a start of its pieces. -/
theorem IsStart.mono {front back less : Bytes} (h : IsStart front back) (hle : less <+: back) :
    IsStart front less := by
  refine h.imp_right fun h => h.imp_right fun ⟨hhere, hback⟩ => ⟨hhere, ?_⟩
  rcases hback with rfl | ⟨rest, rfl⟩
  · exact .inl (List.prefix_nil.mp hle)
  · rcases List.prefix_cons_iff.mp hle with hless | ⟨more, hless, -⟩
    · exact .inl hless
    · exact .inr ⟨more, hless⟩

structure IsAbove (above path : Bytes) : Prop where
  octets : above <+: path
  start : isAbsolute above = isAbsolute path
  steps : steps above = (steps path).dropLast
  plain : EndsPlainly above

theorem endsPlainly_of_steps_eq_nil {path : Bytes} (h : steps path = []) : EndsPlainly path := by
  intro _ name hm
  have hnot := List.filter_eq_nil_iff.mp h name hm
  simpa using hnot

section Pieces
variable {pieces kept : List Bytes}

theorem filter_dropIdle (pieces : List Bytes) :
    (dropIdle pieces).filter (fun piece => !isIdle piece) =
      pieces.filter fun piece => !isIdle piece := Text.filter_dropEnd isIdle pieces

/-- The last of the pieces that are left leads somewhere. -/
theorem isIdle_getLast (h : dropIdle pieces ≠ []) :
    isIdle ((dropIdle pieces).getLast h) = false := by
  have hd : pieces.reverse.dropWhile isIdle ≠ [] := by
    simpa [dropIdle, Text.dropEnd] using h
  have hn := List.head_dropWhile_not isIdle hd
  simpa [dropIdle, Text.dropEnd, List.getLast_reverse] using hn

theorem steps_join (hslash : ∀ piece ∈ pieces, slash ∉ piece) :
    steps (Text.join [slash] pieces) = pieces.filter fun piece => !isIdle piece := by
  cases pieces with
  | nil => rfl
  | cons first rest => rw [steps_eq, Text.split_join (List.cons_ne_nil _ _) hslash]

/-- Without its last piece, what is left of a path leads to one place less. -/
theorem filter_dropIdle_dropLast (hne : dropIdle pieces ≠ []) :
    (dropIdle (dropIdle pieces).dropLast).filter (fun piece => !isIdle piece) =
      (pieces.filter fun piece => !isIdle piece).dropLast := by
  have hlast := isIdle_getLast hne
  rw [filter_dropIdle, ← filter_dropIdle pieces]
  generalize dropIdle pieces = left at hne hlast
  conv_rhs => rw [← List.dropLast_concat_getLast hne, List.filter_append]
  rw [List.filter_cons_of_pos (by simp [hlast]), List.filter_nil, List.dropLast_concat]

end Pieces

theorem names_join_last {pieces : List Bytes} (hslash : ∀ piece ∈ pieces, slash ∉ piece)
    (hne : pieces ≠ []) (hlast : isIdle (pieces.getLast hne) = false) :
    (names (Text.join [slash] pieces)).getLast? = some (pieces.getLast hne) := by
  rw [names, Text.split_join hne hslash]
  conv_lhs => rw [← List.dropLast_concat_getLast hne, List.filter_append]
  have hfull : pieces.getLast hne ≠ [] := by
    intro he
    rw [he] at hlast
    cases hlast
  rw [List.filter_cons_of_pos (by simpa using hfull), List.filter_nil, List.getLast?_concat]

/-- **The path above another one** has a start of its octets, and leads to one place less. -/
theorem parent?_isAbove {path above : Bytes} (h : parent? path = some above) :
    IsAbove above path := by
  have hwhole := List.take_append_drop (startLength path) path
  obtain ⟨hstart, hrelative⟩ := isStart_take path
  rw [parent?_eq] at h
  generalize path.take (startLength path) = front at h hwhole hstart hrelative
  generalize path.drop (startLength path) = back at h hwhole hstart
  have hsteps : steps path = (Text.split slash back).filter fun piece => !isIdle piece := by
    rw [← hwhole, steps_start hstart, steps_eq]
  have hnone : dropIdle (Text.split slash back) = [] → steps path = [] := by
    intro hempty
    rw [hsteps, ← filter_dropIdle, hempty]
    rfl
  split at h
  · rename_i hempty
    have hnothing := hnone (List.isEmpty_iff.mp hempty)
    split at h
    · rename_i hhere
      obtain rfl := Option.some.inj h
      refine ⟨List.nil_prefix, ?_, by rw [hnothing]; rfl, endsPlainly_of_steps_eq_nil rfl⟩
      rw [← hwhole, hhere]
      rfl
    · cases h
  · rename_i hne
    obtain rfl := Option.some.inj h
    have hpieces : dropIdle (Text.split slash back) ≠ [] := fun he => hne (List.isEmpty_iff.mpr he)
    have hkept : dropIdle (dropIdle (Text.split slash back)).dropLast <+: Text.split slash back :=
      ((dropEnd_le isIdle _).trans (List.dropLast_prefix _)).trans (dropEnd_le isIdle _)
    have hslash : ∀ piece ∈ dropIdle (dropIdle (Text.split slash back)).dropLast, slash ∉ piece :=
      fun piece hm => Text.not_mem_of_mem_split (hkept.subset hm)
    have hoctets : Text.join [slash] (dropIdle (dropIdle (Text.split slash back)).dropLast) <+:
        back := by
      have hjoin := Text.join_prefix [slash] hkept
      rwa [Text.join_split] at hjoin
    have hcut := filter_dropIdle_dropLast hpieces
    generalize hk : dropIdle (dropIdle (Text.split slash back)).dropLast = kept at *
    have hless := hstart.mono hoctets
    have habove : steps (front ++ Text.join [slash] kept) = (steps path).dropLast := by
      rw [steps_start hless, steps_join hslash, hcut, hsteps]
    refine ⟨?_, ?_, habove, ?_⟩
    · rw [← hwhole]
      exact (List.prefix_append_right_inj front).mpr hoctets
    · rw [← hwhole]
      rcases hstart with rfl | rfl | ⟨rfl, -⟩
      · have hback : isAbsolute back = false := by
          have hpath := hrelative rfl
          rwa [← hwhole] at hpath
        cases hjoin : Text.join [slash] kept with
        | nil => exact hback.symm
        | cons octet rest =>
          rw [hjoin] at hoctets
          obtain ⟨more, rfl⟩ := hoctets
          rfl
      · rfl
      · rfl
    · by_cases hnil : kept = []
      · subst hnil
        exact endsPlainly_of_steps_eq_nil (by rw [steps_start hless]; rfl)
      · -- the last piece that is kept leads somewhere
        subst hk
        have hlast := isIdle_getLast hnil
        intro hends
        rw [names_start hless, List.getLast?_append, names_join_last hslash hnil hlast,
          Option.some_or] at hends
        rw [Option.some.inj hends] at hlast
        exact absurd hlast (by decide)

theorem steps_of_parent?_eq_none {path : Bytes} (h : parent? path = none) : steps path = [] := by
  have hwhole := List.take_append_drop (startLength path) path
  obtain ⟨hstart, -⟩ := isStart_take path
  rw [parent?_eq] at h
  split at h
  · rename_i hempty
    rw [← hwhole, steps_start hstart, steps_eq, ← filter_dropIdle, List.isEmpty_iff.mp hempty]
    rfl
  · cases h

end Pathname

namespace Disk

/-! ## One directory -/

/-- A file tree becomes another one by directories at some locations. -/
structure Makes (made : List Location) (old new : Disk) : Prop where
  tree : new.IsFileTree
  cwd : new.cwdLocation? = old.cwdLocation?
  directories : ∀ location ∈ made, new.entryAt? location = some .directory
  others : ∀ location, location ∉ made → new.entryAt? location = old.entryAt? location

/-- Nothing but directories stands on the way of a path. -/
def IsClear (disk : Disk) (path : Bytes) : Prop :=
  ∀ l ∈ disk.wayOf path, disk.entryAt? l = none ∨ disk.entryAt? l = some .directory

section Congr
variable {old new : Disk} (h : new.cwdLocation? = old.cwdLocation?)
include h

theorem wayOf_congr : new.wayOf = old.wayOf := by
  funext path
  rw [wayOf, wayOf, startAt, startAt, h]

theorem locationOf_congr : new.locationOf = old.locationOf := by
  funext path
  rw [locationOf, locationOf, route, route, h]

end Congr

namespace IsFileTree
variable {disk : Disk} (h : disk.IsFileTree) {path : Bytes}
include h

/-- Where a path leads to nothing, a node can be added under its last name. -/
theorem free_place {followsLast : Bool} {place : Place}
    (hp : disk.locate followsLast path = .ok place) (hn : place.node = none) :
    Pathname.IsName place.name ∧ disk.IsFree place ∧ ∃ above,
      disk.numberAt? root above = some place.directory ∧
        disk.locationOf path = above ++ [place.name] := by
  obtain ⟨-, -, -, hleads⟩ := (resolve_leads h.tree).mp hp
  obtain ⟨-, hnone⟩ := h.leads_found hleads (h.numberAt?_startAt path)
  obtain ⟨hordinary, hm, habove⟩ := hnone hn
  obtain ⟨hne, hslash⟩ := Pathname.mem_names hm
  rw [h.locationOf_eq]
  exact ⟨⟨hne, hslash, hordinary.notHere, hordinary.notUp⟩, hleads.free hn, habove⟩

theorem makeDirectory_new (hreach : disk.IsReachable path)
    (hnone : disk.entryAt? (disk.locationOf path) = none) :
    ∃ new, makeDirectory path disk = .ok () new ∧ Makes [disk.locationOf path] disk new := by
  obtain ⟨place, hp⟩ : ∃ place, disk.locate false path = .ok place := h.locate_iff.mpr hreach
  have hnode : place.node = none := by
    rw [h.locate_node hp, ← Option.not_isSome_iff_eq_none, ← entryAt?_isSome h.tree, hnone]
    simp
  obtain ⟨hname, hfree, above, ha, he⟩ := h.free_place hp hnode
  have hadds := addNode_adds hfree (.directory place.directory [])
  have hbare : Node.IsBare place.directory (.directory place.directory []) := .inr rfl
  refine ⟨(disk.addNode place (.directory place.directory [])).2, ?_,
    hadds.isFileTree h hname hbare, hadds.cwdLocation?_eq h.toIsRooted, fun l hl => ?_,
    fun l hl => ?_⟩
  · rw [makeDirectory, hp]
    dsimp only
    rw [hnode]
    rfl
  · rw [hadds.entryAt?_eq h.toIsRooted hname hbare ha, List.mem_singleton.mp hl, he, if_pos rfl]
    rfl
  · rw [hadds.entryAt?_eq h.toIsRooted hname hbare ha, ← he,
      if_neg fun hat => hl (List.mem_singleton.mpr hat)]

theorem makeDirectory_old (hreach : disk.IsReachable path)
    (hsome : (disk.entryAt? (disk.locationOf path)).isSome) :
    makeDirectory path disk = .error .alreadyExists disk := by
  obtain ⟨place, hp⟩ : ∃ place, disk.locate false path = .ok place := h.locate_iff.mpr hreach
  rw [entryAt?_isSome h.tree, ← h.locate_node hp] at hsome
  rw [makeDirectory, hp]
  exact if_pos hsome

/-- A path that cannot be followed is not made. Where it is clear, a directory is missing. -/
theorem makeDirectory_unreached (hreach : ¬ disk.IsReachable path) :
    ∃ cause, makeDirectory path disk = .error cause disk ∧
      (path ≠ [] → Fits path → disk.IsClear path → cause = .notFound) := by
  cases hp : disk.locate false path with
  | ok place =>
    have hfound : ∃ place, disk.locate false path = .ok place := ⟨place, hp⟩
    exact absurd (h.locate_iff.mp hfound) hreach
  | error cause =>
    refine ⟨cause, by rw [makeDirectory, hp], fun hne hf hclear => ?_⟩
    rcases h.resolve_unblocked hne hf fun l hl => hclear l (Pathname.dropLast_way_subset l hl) with
      ⟨place, hok⟩ | herror
    · cases hok.symm.trans hp
    · exact Except.error.inj (hp.symm.trans herror)

end IsFileTree

/-! ## A directory and those above it -/

/-- Makes the last directory of a path, unless it is there. -/
def makeLast (path : Bytes) : Change Unit := fun disk =>
  match makeDirectory path disk with
  | .ok () made => .ok () made
  | .error cause _ => if disk.isDirectory path then .ok () disk else .error cause disk

section Equations
variable {disk : Disk} {path : Bytes}

theorem makeDirectories_nil (disk : Disk) : makeDirectories [] disk = .ok () disk := by
  rw [makeDirectories]
  rfl

theorem makeDirectories_of_found (hne : path ≠ [])
    (hm : ∀ left, makeDirectory path disk ≠ .error .notFound left) :
    makeDirectories path disk = makeLast path disk := by
  rw [makeDirectories, if_neg (by simpa using hne), makeLast]
  cases hmake : makeDirectory path disk with
  | ok u made => rfl
  | error cause left =>
    cases cause with
    | notFound => exact absurd hmake (hm left)
    | _ => rfl

theorem makeDirectories_of_missing {left : Disk} (hne : path ≠ [])
    (hm : makeDirectory path disk = .error .notFound left) : makeDirectories path disk =
      match Pathname.parent? path with
      | none => .error .notFound disk
      | some above => match makeDirectories above disk with
        | .error cause left => .error cause left
        | .ok () ready => makeLast path ready := by
  rw [makeDirectories, if_neg (by simpa using hne), hm]
  dsimp only
  split
  · rename_i hnone
    rw [hnone]
  · rename_i above habove
    rw [habove]
    rfl

end Equations

def IsMakeable (disk : Disk) (path : Bytes) : Prop := Fits path ∧ disk.IsClear path

def IsMaking (disk : Disk) (path : Bytes) : EStateM.Result IoError Disk Unit → Prop
  | .ok _ new => disk.IsMakeable path ∧ Makes (disk.wayOf path) disk new
  | .error _ _ => ¬ disk.IsMakeable path

section Above
variable {disk : Disk} {path above : Bytes} (h : Pathname.IsAbove above path)
include h

theorem startAt_above : disk.startAt above = disk.startAt path := by
  rw [startAt, startAt, h.start]

theorem wayOf_above : ∀ l ∈ disk.wayOf above, l ∈ disk.wayOf path := by
  intro l hl
  rw [wayOf, startAt_above h, ← Pathname.mem_way_filter] at hl
  rw [wayOf, ← Pathname.mem_way_filter]
  change l ∈ Pathname.way _ (Pathname.steps above) at hl
  change l ∈ Pathname.way _ (Pathname.steps path)
  rw [h.steps] at hl
  obtain ⟨last, hlast⟩ := List.dropLast_prefix (Pathname.steps path)
  rw [← hlast, Pathname.way_append]
  rw [Pathname.way_eq] at hl
  rcases List.mem_append.mp hl with hl | hl
  · exact List.mem_append_left _ hl
  · rw [List.mem_singleton.mp hl]
    exact List.mem_append_right _ Pathname.start_mem_way

/-- Above the last name of a path that ends plainly there is only what the path above it leads
through. -/
theorem dropLast_wayOf (hplain : Pathname.EndsPlainly path) :
    ∀ l ∈ (disk.wayOf path).dropLast, l ∈ disk.wayOf above := by
  intro l hl
  rw [wayOf] at hl
  rw [wayOf, startAt_above h, ← Pathname.mem_way_filter]
  change l ∈ Pathname.way _ (Pathname.steps above)
  cases hnames : Pathname.names path using List.reverseRecOn with
  | nil =>
    rw [hnames] at hl
    cases hl
  | append_singleton front last =>
    rw [hnames, Pathname.way_concat, List.dropLast_concat] at hl
    by_cases hlast : last = Pathname.here
    · -- there is no other name, and no way
      have hall : ∀ name ∈ front, name = Pathname.here := by
        intro name hm
        refine hplain (by rw [hnames, List.getLast?_concat, hlast]) name ?_
        rw [hnames]
        exact List.mem_append_left _ hm
      have hnone : front.filter (· ≠ Pathname.here) = [] := by
        rw [List.filter_eq_nil_iff]
        intro name hm
        simp [hall name hm]
      rw [← Pathname.mem_way_filter, hnone, Pathname.way, List.mem_singleton] at hl
      rw [hl]
      exact Pathname.start_mem_way
    · have hsteps : Pathname.steps path = front.filter (· ≠ Pathname.here) ++ [last] := by
        rw [Pathname.steps, hnames, List.filter_append,
          List.filter_cons_of_pos (by simpa using hlast), List.filter_nil]
      rw [h.steps, hsteps, List.dropLast_concat, Pathname.mem_way_filter]
      exact hl

theorem fits_above (hf : Fits path) : Fits above := by
  refine ⟨fun hm => hf.noZero (h.octets.subset hm), Nat.le_trans h.octets.length_le hf.short, ?_⟩
  intro name hm
  by_cases hname : name = Pathname.here
  · rw [hname]
    decide
  · have hstep : name ∈ Pathname.steps above := List.mem_filter.mpr ⟨hm, by simpa using hname⟩
    rw [h.steps] at hstep
    exact hf.names name (List.mem_filter.mp ((List.dropLast_prefix _).subset hstep)).1

theorem makeable_above (hm : disk.IsMakeable path) : disk.IsMakeable above :=
  ⟨fits_above h hm.1, fun l hl => hm.2 l (wayOf_above h l hl)⟩

end Above

namespace IsFileTree
variable {disk : Disk} (h : disk.IsFileTree)
include h

theorem mem_wayOf {path : Bytes} {l : Location} :
    l ∈ disk.wayOf path ↔ l ∈ (disk.wayOf path).dropLast ∨ l = disk.locationOf path := by
  rw [h.locationOf_eq]
  conv_lhs => rw [wayOf, Pathname.way_eq, List.mem_append, List.mem_singleton]
  rfl

/-- The last step, on a disk where the directories above it are there by now. -/
theorem makeLast_spec {made : List Location} {ready : Disk} {path : Bytes}
    (hmakes : Makes made disk ready) (hmade : ∀ l ∈ made, l ∈ disk.wayOf path)
    (hclear : ∀ l ∈ made, disk.entryAt? l = none ∨ disk.entryAt? l = some .directory)
    (hreach : ready.IsReachable path) : IsMaking disk path (makeLast path ready) := by
  have hr := hmakes.tree
  have hlocation := congrFun (locationOf_congr hmakes.cwd) path
  have hway : ∀ l ∈ (disk.wayOf path).dropLast, ready.entryAt? l = some .directory := by
    rw [← wayOf_congr hmakes.cwd]
    exact hreach.way
  have hbefore {l : Location} (hl : ready.entryAt? l = some .directory) :
      disk.entryAt? l = none ∨ disk.entryAt? l = some .directory := by
    by_cases hin : l ∈ made
    · exact hclear l hin
    · rw [← hmakes.others l hin]
      exact .inr hl
  rw [makeLast]
  cases hentry : ready.entryAt? (ready.locationOf path) with
  | none =>
    obtain ⟨new, hmake, hlast⟩ := hr.makeDirectory_new hreach hentry
    rw [hlocation] at hentry hlast
    rw [hmake]
    have hnew : disk.locationOf path ∉ made := by
      intro hin
      rw [hmakes.directories _ hin] at hentry
      cases hentry
    refine ⟨⟨hreach.fits, fun l hl => ?_⟩, hlast.tree, hlast.cwd.trans hmakes.cwd, fun l hl => ?_,
      fun l hl => ?_⟩
    · rcases h.mem_wayOf.mp hl with hl | rfl
      · exact hbefore (hway l hl)
      · rw [← hmakes.others _ hnew]
        exact .inl hentry
    · by_cases hat : l = disk.locationOf path
      · exact hlast.directories l (List.mem_singleton.mpr hat)
      · rw [hlast.others l (by simpa using hat)]
        exact hway l ((h.mem_wayOf.mp hl).resolve_right hat)
    · have hat : l ∉ [disk.locationOf path] := by
        intro hm
        rw [List.mem_singleton.mp hm] at hl
        exact hl (h.locationOf_mem_wayOf path)
      rw [hlast.others l hat]
      exact hmakes.others l fun hm => hl (hmade l hm)
  | some entry =>
    rw [hr.makeDirectory_old hreach (Option.isSome_of_eq_some hentry)]
    dsimp only
    by_cases hd : ready.isDirectory path = true
    · rw [if_pos hd]
      have hall : ∀ l ∈ disk.wayOf path, ready.entryAt? l = some .directory := by
        intro l hl
        rcases h.mem_wayOf.mp hl with hl | rfl
        · exact hway l hl
        · rw [← hlocation]
          exact (hr.isDirectory_iff.mp hd).2
      exact ⟨⟨hreach.fits, fun l hl => hbefore (hall l hl)⟩, hr, hmakes.cwd, hall,
        fun l hl => hmakes.others l fun hm => hl (hmade l hm)⟩
    · rw [if_neg hd]
      rintro ⟨-, hfree⟩
      -- what is there is no directory, so that it was there before
      have hfile : entry ≠ .directory := by
        rintro rfl
        exact hd (hr.isDirectory_iff.mpr ⟨hreach, hentry⟩)
      rw [hlocation] at hentry
      have hold : disk.locationOf path ∉ made := by
        intro hin
        rw [hmakes.directories _ hin] at hentry
        exact hfile (Option.some.inj hentry).symm
      rw [hmakes.others _ hold] at hentry
      rcases hfree _ (h.locationOf_mem_wayOf path) with hnone | hdirectory
      · cases hentry.symm.trans hnone
      · exact hfile (Option.some.inj (hentry.symm.trans hdirectory))

omit h in
theorem makeLast_unreached {ready : Disk} (hr : ready.IsFileTree) {path : Bytes}
    (hreach : ¬ ready.IsReachable path) :
    ∃ cause, makeLast path ready = .error cause ready := by
  obtain ⟨cause, hmake, -⟩ := hr.makeDirectory_unreached hreach
  have hnot : ¬ ready.isDirectory path = true := fun hd => hreach (hr.isDirectory_iff.mp hd).1
  exact ⟨cause, by rw [makeLast, hmake]; exact if_neg hnot⟩

omit h in
/-- **All directories of a path are made exactly if it can be followed and is clear.** -/
theorem makeDirectories_spec {disk : Disk} (h : disk.IsFileTree) {path : Bytes}
    (hplain : Pathname.EndsPlainly path) : IsMaking disk path (makeDirectories path disk) := by
  by_cases hne : path = []
  · subst hne
    have hway : ∀ l ∈ disk.wayOf [], disk.entryAt? l = some .directory := by
      intro l hl
      rw [List.mem_singleton.mp hl]
      exact h.directory_startAt []
    rw [makeDirectories_nil]
    exact ⟨⟨⟨nofun, by decide, nofun⟩, fun l hl => .inr (hway l hl)⟩, h, rfl, hway, fun _ _ => rfl⟩
  · by_cases hreach : disk.IsReachable path
    · have hfound : ∀ left, makeDirectory path disk ≠ .error .notFound left := by
        intro left hm
        cases hentry : disk.entryAt? (disk.locationOf path) with
        | none =>
          obtain ⟨new, hmake, -⟩ := h.makeDirectory_new hreach hentry
          cases hm.symm.trans hmake
        | some entry =>
          cases hm.symm.trans (h.makeDirectory_old hreach (Option.isSome_of_eq_some hentry))
      rw [makeDirectories_of_found hne hfound]
      have hnothing : Makes [] disk disk := ⟨h, rfl, nofun, fun _ _ => rfl⟩
      exact h.makeLast_spec hnothing nofun nofun hreach
    · obtain ⟨cause, hmake, hmissing⟩ := h.makeDirectory_unreached hreach
      by_cases hcause : cause = .notFound
      · subst hcause
        rw [makeDirectories_of_missing hne hmake]
        cases hp : Pathname.parent? path with
        | none =>
          -- the path only has names of the directory itself, which stands
          rintro ⟨hf, -⟩
          refine hreach ⟨hne, hf, fun l hl => ?_⟩
          have hl := Pathname.dropLast_way_subset l hl
          rw [← Pathname.mem_way_filter] at hl
          change l ∈ Pathname.way _ (Pathname.steps path) at hl
          rw [Pathname.steps_of_parent?_eq_none hp, Pathname.way, List.mem_singleton] at hl
          rw [hl]
          exact h.directory_startAt path
        | some above =>
          have := Pathname.length_parent_lt hp
          have habove := Pathname.parent?_isAbove hp
          have hready := makeDirectories_spec h habove.plain
          dsimp only
          cases hmade : makeDirectories above disk with
          | error cause left =>
            rw [hmade] at hready
            exact fun hm => hready (makeable_above habove hm)
          | ok u ready =>
            rw [hmade] at hready
            obtain ⟨⟨-, hclear⟩, hmakes⟩ := hready
            by_cases hnow : ready.IsReachable path
            · exact h.makeLast_spec hmakes (wayOf_above habove) hclear hnow
            · obtain ⟨cause, hfails⟩ := makeLast_unreached hmakes.tree hnow
              dsimp only
              rw [hfails]
              rintro ⟨hf, -⟩
              refine hnow ⟨hne, hf, fun l hl => hmakes.directories l ?_⟩
              rw [wayOf_congr hmakes.cwd] at hl
              exact dropLast_wayOf habove hplain l hl
      · have hfound : ∀ left, makeDirectory path disk ≠ .error .notFound left := by
          intro left hm
          rw [hmake] at hm
          exact hcause (EStateM.Result.error.inj hm).1
        obtain ⟨cause, hfails⟩ := makeLast_unreached h hreach
        rw [makeDirectories_of_found hne hfound, hfails]
        exact fun hm => hcause (hmissing hne hm.1 hm.2)
termination_by path.length

/-- What is there is not made again. -/
theorem makeDirectories_of_directory {path : Bytes} (hd : disk.isDirectory path = true) :
    makeDirectories path disk = .ok () disk := by
  obtain ⟨hreach, hentry⟩ := h.isDirectory_iff.mp hd
  have hold := h.makeDirectory_old hreach (Option.isSome_of_eq_some hentry)
  have hfound : ∀ left, makeDirectory path disk ≠ .error .notFound left := by
    intro left hm
    cases hm.symm.trans hold
  rw [makeDirectories_of_found hreach.notEmpty hfound, makeLast, hold]
  exact if_pos hd

end IsFileTree

end Disk

end FirmwareBuild
