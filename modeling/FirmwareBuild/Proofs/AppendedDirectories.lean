import FirmwareBuild.Proofs.OverlayFrame
import FirmwareBuild.Proofs.SearchPath

/-! # Appended directories

A call is settled in an overlay that holds what it would write, and then it does
nothing. A directory that is one entry of a list is found again once it is listed,
so that appending it is settled. Appending such directories one after the other
adds those that were not listed, each once, behind the octets that were there
(`appendPaths_lists`). -/

namespace FirmwareBuild.Overlay

/-! ## Settled calls -/

section Put
variable {name value earlier : Bytes} {vars : List (Bytes × Bytes)}

theorem put_of_lookup (hs : (vars.map Prod.fst).Pairwise (· < ·))
    (h : vars.lookup name = some value) : put name value vars = vars := by
  induction vars with
  | nil => cases h
  | cons entry rest ih =>
    obtain ⟨n, v⟩ := entry
    simp only [List.map_cons, List.pairwise_cons] at hs
    rw [List.lookup_cons] at h
    by_cases hn : name = n
    · subst hn
      rw [beq_self_eq_true] at h
      obtain rfl := Option.some.inj h
      simp [put, List.lt_irrefl]
    · rw [beq_false_of_ne hn] at h
      -- the name stands further back, and so it is behind `n` in the order
      have hmem : name ∈ rest.map Prod.fst := by
        obtain ⟨entry, hm, he⟩ := List.lookup_isSome_iff.mp (Option.isSome_of_eq_some h)
        exact List.mem_map.mpr ⟨entry, hm, (beq_iff_eq.mp he).symm⟩
      have hlt : ¬ name < n := fun hlt => List.lt_irrefl _ (List.lt_trans hlt (hs.1 _ hmem))
      rw [put, if_neg hlt, if_neg hn, ih hs.2 h]

theorem put_put : put name value (put name earlier vars) = put name value vars := by
  induction vars with
  | nil => simp [put, List.lt_irrefl]
  | cons entry rest ih =>
    obtain ⟨n, v⟩ := entry
    by_cases hlt : name < n
    · simp [put, hlt, List.lt_irrefl]
    · by_cases hn : name = n
      · subst hn
        simp [put, List.lt_irrefl]
      · simp [put, hlt, hn, ih]

end Put

variable {env : Overlay} {name : Text}

theorem set_of_getBytes? {value : Bytes} (h : env.getBytes? name = some value) :
    env.set name value = env := by
  obtain ⟨k, hk, hl⟩ := Option.bind_eq_some_iff.mp h
  have hvars : put k value env.vars = env.vars := put_of_lookup env.sorted hl
  simp only [set, insert, hk, Option.getD_some, hvars]

@[simp] theorem target_set (value : Bytes) :
    (env.set name value).target name = env.target name := by
  rw [target, spelling?_set, if_pos (sameText_refl _ _), Option.getD_some]

theorem set_set (earlier value : Bytes) :
    (env.set name earlier).set name value = env.set name value := by
  change (env.set name earlier).insert ((env.set name earlier).target name) value =
    env.insert (env.target name) value
  rw [target_set]
  simp only [set, insert, target, put_put]

/-- What a call would write is held already. -/
def Write.Settled (call : Write) (env : Overlay) : Prop :=
  ∀ value, call.value? env.getBytes? = some value → env.getBytes? call.name = some value

theorem Write.Settled.apply {call : Write} (h : call.Settled env) : call.apply env = env := by
  rw [Write.apply_eq]
  cases hv : call.value? env.getBytes? with
  | none => rfl
  | some value => exact set_of_getBytes? (h value hv)

theorem applyAll_settled {calls : List Write} (h : ∀ call ∈ calls, call.Settled env) :
    applyAll calls env = env := by
  induction calls with
  | nil => rfl
  | cons call rest ih =>
    have hcall : call.apply env = env := (h call List.mem_cons_self).apply
    have hrest : applyAll rest env = env := ih fun c hc => h c (List.mem_cons_of_mem _ hc)
    change applyAll rest (call.apply env) = env
    rw [hcall, hrest]

/-- Whether a call is settled hangs on its own variable only. -/
theorem Write.Settled.congr {call : Write} {other : Overlay} (h : call.Settled env)
    (hname : other.getBytes? call.name = env.getBytes? call.name) : call.Settled other := by
  intro value hv
  rw [Write.value?_congr hname] at hv
  rw [hname]
  exact h value hv

theorem Write.settled_of_made {call : Write} {held : Held} (hpath : call.name ≠ pathName)
    (h : env.getBytes? call.name = (call.value? held).or (held call.name)) : call.Settled env := by
  cases call with
  | set name value =>
    intro written hw
    obtain rfl := Option.some.inj hw
    exact h
  | setDefault name value =>
    have hsome : (env.getBytes? name).isSome = true := by
      have hheld : env.getBytes? name = some ((held name).getD value) :=
        h.trans (Write.value?_setDefault_or held name value)
      rw [hheld]
      rfl
    intro written hw
    rw [Write.value?, if_pos hsome] at hw
    cases hw
  | appendPath host directory => exact absurd rfl hpath

/-! ## The search path -/

/-- Appending directories sets the search path, or leaves the overlay. -/
theorem appendPaths_eq (host : Host) (directories : List Text) (env : Overlay) :
    applyAll (directories.map (.appendPath host)) env = env ∨
      applyAll (directories.map (.appendPath host)) env =
        env.set pathName (applyAll (directories.map (.appendPath host)) env).searchPath := by
  induction directories generalizing env with
  | nil => exact .inl rfl
  | cons directory rest ih =>
    have hstep : env.appendPath host directory = env ∨
        ∃ path, env.appendPath host directory = env.set pathName path := by
      rw [appendPath]
      split
      · exact .inl rfl
      · exact .inr ⟨_, rfl⟩
    change applyAll (rest.map (.appendPath host)) (env.appendPath host directory) = env ∨
      applyAll (rest.map (.appendPath host)) (env.appendPath host directory) = env.set pathName
        (applyAll (rest.map (.appendPath host)) (env.appendPath host directory)).searchPath
    rcases hstep with hstep | ⟨path, hstep⟩
    · rw [hstep]
      exact ih env
    · rw [hstep]
      rcases ih (env.set pathName path) with hrest | hrest
      · right
        rw [hrest, searchPath, getBytes?_set_self, Option.getD_some]
      · rw [set_set] at hrest
        exact .inr hrest

theorem appendPaths_eq_set (host : Host) (directories : List Text)
    (h : (env.getBytes? pathName).isSome = true) :
    applyAll (directories.map (.appendPath host)) env =
      env.set pathName (applyAll (directories.map (.appendPath host)) env).searchPath := by
  rcases appendPaths_eq host directories env with hsame | hset
  · obtain ⟨path, hp⟩ := Option.isSome_iff_exists.mp h
    rw [hsame, searchPath, hp, Option.getD_some]
    exact (set_of_getBytes? hp).symm
  · exact hset

section Entries
variable {host : Host} {path : Bytes} {directory entry : Text} {directories : List Text}

theorem mem_entries_appendEntry (h : entry ∈ entries host path) (hne : entry ≠ []) :
    entry ∈ entries host (appendEntry host.listSeparator path directory) := by
  rw [entries_appendEntry]
  split
  · rename_i hempty
    rw [hempty, entries_nil, List.mem_singleton] at h
    exact absurd h hne
  · exact List.mem_append_left _ h

theorem mem_entries_lengthened (h : entry ∈ entries host path) (hne : entry ≠ []) :
    entry ∈ entries host (lengthened host path directories) := by
  induction directories generalizing path with
  | nil => exact h
  | cons directory rest ih => exact ih (mem_entries_appendEntry h hne)

theorem mem_entries_lengthened_of_mem (h : directory ∈ directories) (hne : directory ≠ [])
    (hsep : host.listSeparator ∉ directory) :
    directory ∈ entries host (lengthened host path directories) := by
  induction directories generalizing path with
  | nil => cases h
  | cons first rest ih =>
    rcases List.mem_cons.mp h with rfl | h
    · have hnow : directory ∈ entries host (appendEntry host.listSeparator path directory) := by
        rw [entries_appendEntry, Text.split_of_not_mem hsep]
        exact List.mem_append_right _ List.mem_cons_self
      change directory ∈ entries host
        (lengthened host (appendEntry host.listSeparator path directory) rest)
      exact mem_entries_lengthened hnow hne
    · exact ih h

end Entries

/-! ## Directories that are one entry each -/

/-- The directories that a search path lists: an empty one lists none. -/
def listed (host : Host) (path : Bytes) : List Text :=
  if path = [] then [] else entries host path

/-- Those of some directories that a list does not have, each once, in the order in which they
come. -/
def newTo (old directories : List Text) : List Text :=
  (directories.filter fun directory => !old.contains directory).eraseDups

section Listed
variable {host : Host} {path : Bytes} {directory : Text} {old directories : List Text}

theorem mem_listed (hne : directory ≠ []) :
    directory ∈ listed host path ↔ directory ∈ entries host path := by
  unfold listed
  split
  · rename_i hempty
    simp [hempty, hne]
  · rfl

theorem newTo_cons_of_mem (h : directory ∈ old) :
    newTo old (directory :: directories) = newTo old directories := by
  rw [newTo, List.filter_cons_of_neg (by simpa using h), newTo]

theorem newTo_cons_of_not_mem (h : directory ∉ old) :
    newTo old (directory :: directories) =
      directory :: newTo (old ++ [directory]) directories := by
  rw [newTo, List.filter_cons_of_pos (by simpa using h), List.eraseDups_cons, List.filter_filter]
  congr 2
  apply List.filter_congr
  intro other _
  rw [Bool.eq_iff_iff]
  simp [and_comm]

theorem mem_newTo :
    directory ∈ newTo old directories ↔ directory ∈ directories ∧ directory ∉ old := by
  simp [newTo]

theorem prefix_lengthened (host : Host) (path : Bytes) (directories : List Text) :
    path <+: lengthened host path directories := by
  induction directories generalizing path with
  | nil => exact List.prefix_rfl
  | cons directory rest ih =>
    have hentry : path <+: appendEntry host.listSeparator path directory := by
      rw [appendEntry]
      cases path with
      | nil => exact List.nil_prefix
      | cons b path => exact (List.prefix_append _ _).trans (List.prefix_append _ _)
    exact hentry.trans (ih _)

theorem listed_appendEntry (hne : directory ≠ []) (hone : host.listSeparator ∉ directory) :
    listed host (appendEntry host.listSeparator path directory) =
      listed host path ++ [directory] := by
  have hfull : appendEntry host.listSeparator path directory ≠ [] := by
    intro hempty
    have hnothing : Utf8.encode directory = Utf8.encode [] :=
      (List.append_eq_nil_iff.mp hempty).2
    exact hne (Utf8.encode_inj.mp hnothing)
  rw [listed, if_neg hfull, entries_appendEntry, Text.split_of_not_mem hone]
  rfl

theorem listed_lengthened
    (h : ∀ directory ∈ directories, directory ≠ [] ∧ host.listSeparator ∉ directory) :
    listed host (lengthened host path directories) = listed host path ++ directories := by
  induction directories generalizing path with
  | nil => exact (List.append_nil _).symm
  | cons directory rest ih =>
    obtain ⟨hne, hone⟩ := h directory List.mem_cons_self
    have hrest : listed host
        (lengthened host (appendEntry host.listSeparator path directory) rest) =
          listed host (appendEntry host.listSeparator path directory) ++ rest :=
      ih fun d hd => h d (List.mem_cons_of_mem _ hd)
    rw [listed_appendEntry hne hone, List.append_assoc] at hrest
    exact hrest

/-- Appending directories lengthens the search path by those that are new to it. -/
theorem searchPath_appendPaths_newTo
    (h : ∀ directory ∈ directories, directory ≠ [] ∧ host.listSeparator ∉ directory)
    (env : Overlay) :
    (applyAll (directories.map (.appendPath host)) env).searchPath =
      lengthened host env.searchPath (newTo (listed host env.searchPath) directories) := by
  induction directories generalizing env with
  | nil => rfl
  | cons directory rest ih =>
    obtain ⟨hne, hone⟩ := h directory List.mem_cons_self
    have hrest := ih (fun d hd => h d (List.mem_cons_of_mem _ hd)) (env.appendPath host directory)
    change (applyAll (rest.map (.appendPath host)) (env.appendPath host directory)).searchPath = _
    rw [hrest, searchPath_appendPath]
    by_cases hold : directory ∈ listed host env.searchPath
    · rw [if_pos ((mem_listed hne).mp hold), newTo_cons_of_mem hold]
    · rw [if_neg (mt (mem_listed hne).mpr hold), newTo_cons_of_not_mem hold,
        listed_appendEntry hne hone]
      rfl

end Listed

/-- What an overlay is after directories were appended to the search path of `before`. -/
structure HasAppended (host : Host) (directories : List Text) (before after : Overlay) : Prop where
  lists : listed host after.searchPath = listed host before.searchPath ++
    newTo (listed host before.searchPath) directories
  kept : ∀ path, before.getBytes? pathName = some path →
    ∃ more, after.getBytes? pathName = some (path ++ more)
  others : ∀ k, k ≠ before.target pathName → after.lookup k = before.lookup k
  rule : after.ignoreCase = before.ignoreCase
  settled : applyAll (directories.map (.appendPath host)) after = after

/-- **Appending directories lists each one once, behind what was listed**, and doing it again
changes nothing. -/
theorem appendPaths_lists (host : Host) (directories : List Text)
    (h : ∀ directory ∈ directories, directory ≠ [] ∧ host.listSeparator ∉ directory)
    (before : Overlay) :
    HasAppended host directories before (applyAll (directories.map (.appendPath host)) before) := by
  have hpath := searchPath_appendPaths_newTo h before
  have hlists : listed host (applyAll (directories.map (.appendPath host)) before).searchPath =
      listed host before.searchPath ++ newTo (listed host before.searchPath) directories := by
    rw [hpath]
    exact listed_lengthened fun d hd => h d (mem_newTo.mp hd).1
  refine ⟨hlists, ?_, ?_, applyAll_ignoreCase _ before, ?_⟩
  · intro path hp
    obtain ⟨more, hmore⟩ := prefix_lengthened host before.searchPath
      (newTo (listed host before.searchPath) directories)
    refine ⟨more, ?_⟩
    rw [appendPaths_eq_set host directories (Option.isSome_of_eq_some hp), getBytes?_set_self,
      hpath, ← hmore, searchPath, hp, Option.getD_some]
  · intro k hk
    rcases appendPaths_eq host directories before with hsame | hset
    · rw [hsame]
    · rw [hset, lookup_set, if_neg hk]
  · apply applyAll_settled
    intro call hc
    obtain ⟨directory, hd, rfl⟩ := List.mem_map.mp hc
    -- every directory is listed by now, so that the call has nothing to write
    have hthere : directory ∈
        listed host (applyAll (directories.map (.appendPath host)) before).searchPath := by
      rw [hlists, List.mem_append, mem_newTo]
      exact Decidable.or_iff_not_imp_left.mpr fun hnew => ⟨hd, hnew⟩
    intro value hv
    simp only [Write.value?] at hv
    split at hv
    · cases hv
    · rename_i hnot
      exact absurd ((mem_listed (h directory hd).1).mp hthere) hnot

/-- A search path that ends in a broken sequence. -/
theorem appendPaths_lists_broken :
    (∀ directory ∈ ["/b".toList, "/a".toList, "/b".toList],
      directory ≠ [] ∧ Host.posix.listSeparator ∉ directory) ∧
    HasAppended .posix ["/b".toList, "/a".toList, "/b".toList]
      (.ofList [(Utf8.encode pathName, Utf8.encode "/a:/c".toList ++ [0xE2, 0x82])])
      (applyAll (["/b".toList, "/a".toList, "/b".toList].map (.appendPath .posix))
        (.ofList [(Utf8.encode pathName, Utf8.encode "/a:/c".toList ++ [0xE2, 0x82])])) :=
  ⟨by decide, appendPaths_lists .posix _ (by decide) _⟩

end FirmwareBuild.Overlay
