import FirmwareBuild.Proofs.SeededTrees

/-! # Resumed seeding

Seeding that stopped at a template leaves the files before it and the directory, and
nothing else. When the templates are there it goes on from that, and the tree it comes
to is the one that seeding would have made of the first tree with these templates
(`seed_isResumable`). Supplied templates cannot stand on the way of the directory, since
everything there is a directory by then. -/

namespace FirmwareBuild.ConfDirectory

open Disk

/-- Some templates are added, with the directories above them, and nothing else. -/
structure Supplied (workspace : Bytes) (supply : Text → Option (Bytes × Nat))
    (old new : Disk) : Prop extends KeepsEntries old new where
  put : ∀ file ∈ files, ∀ data mode, supply file = some (data, mode) →
    new.entryAt? (templateAt old workspace file) = some (.file data mode)
  others : ∀ l, (∀ file ∈ files, (supply file).isSome →
    ¬ l <+: templateAt old workspace file) → new.entryAt? l = old.entryAt? l

theorem not_fileAt_prefix {disk : Disk} (h : disk.IsFileTree) (workspace : Bytes)
    {file other : Text} (hf : file ∈ files) (ho : other ∈ files) :
    ¬ fileAt disk workspace file <+: templateAt disk workspace other := by
  rw [fileAt_eq h workspace hf, templateAt_eq h workspace ho, List.prefix_append_right_inj,
    List.cons_prefix_cons]
  rintro ⟨hname, -⟩
  exact absurd hname (by decide)

/-- Supplying templates does not touch a file. -/
theorem Supplied.file_same {workspace : Bytes} {supply : Text → Option (Bytes × Nat)} {file : Text}
    {old new : Disk} (h : old.IsFileTree) (hs : Supplied workspace supply old new)
    (hf : file ∈ files) :
    new.entryAt? (fileAt old workspace file) = old.entryAt? (fileAt old workspace file) :=
  hs.others _ fun _ ho _ => not_fileAt_prefix h workspace hf ho

/-- At a supplied template or above it, the disk with the templates decides what stands. -/
theorem Supplied.entry_of_prefix {workspace : Bytes} {supply : Text → Option (Bytes × Nat)}
    {file : Text} {old new : Disk} (hs : Supplied workspace supply old new) (hf : file ∈ files)
    {data : Bytes} {mode : Nat} (hsupply : supply file = some (data, mode)) {l : Location}
    (hl : l <+: templateAt old workspace file) :
    new.entryAt? l = if l = templateAt old workspace file then some (.file data mode)
      else some .directory := by
  have hput := hs.put file hf data mode hsupply
  split
  · rename_i hat
    rw [hat, hput]
  · rename_i hne
    exact hs.tree.directory_of_prefix hl hne (Option.isSome_of_eq_some hput)

theorem supplied_cases (disk : Disk) (workspace : Bytes) (supply : Text → Option (Bytes × Nat))
    (l : Location) :
    (∃ file data mode, file ∈ files ∧ supply file = some (data, mode) ∧
      l <+: templateAt disk workspace file) ∨
    ∀ file ∈ files, (supply file).isSome → ¬ l <+: templateAt disk workspace file := by
  by_cases hnone : ∀ file ∈ files, (supply file).isSome → ¬ l <+: templateAt disk workspace file
  · exact .inr hnone
  · push Not at hnone
    obtain ⟨file, hf, hsome, hl⟩ := hnone
    obtain ⟨⟨data, mode⟩, hsupply⟩ := Option.isSome_iff_exists.mp hsome
    exact .inl ⟨file, data, mode, hf, hsupply, hl⟩

/-- A call stopped, and templates are supplied to what it left and to what it began with. They
are all that were missing: every file is there or has a template that can be read. -/
structure Resumption (workspace : Bytes) (supply : Text → Option (Bytes × Nat))
    (copied : List Text) (first stopped resumed fresh : Disk) : Prop where
  tree : first.IsFileTree
  seeded : Seeded workspace copied first stopped
  known : ∀ file ∈ copied, file ∈ files
  later : Supplied workspace supply stopped resumed
  earlier : Supplied workspace supply first fresh
  complete : ∀ file ∈ files, resumed.pathExists (filePath workspace file) = true ∨
    ∃ data, resumed.read (templatePath workspace file) = .ok data

namespace Resumption
variable {workspace : Bytes} {supply : Text → Option (Bytes × Nat)} {copied : List Text}
  {first stopped resumed fresh : Disk} {file : Text}
  (h : Resumption workspace supply copied first stopped resumed fresh)
include h

theorem cwd : resumed.cwdLocation? = first.cwdLocation? := h.later.cwd.trans h.seeded.cwd

/-- Where templates are supplied, both disks have them. -/
theorem supplied_eq {l : Location} {data : Bytes} {mode : Nat} (hf : file ∈ files)
    (hsupply : supply file = some (data, mode)) (hl : l <+: templateAt first workspace file) :
    resumed.entryAt? l = fresh.entryAt? l := by
  rw [h.earlier.entry_of_prefix hf hsupply hl]
  rw [← templateAt_congr h.seeded.cwd] at hl ⊢
  exact h.later.entry_of_prefix hf hsupply hl

/-- Apart from the way of the directory and the files, both disks with the templates agree. -/
theorem agree {l : Location} (hway : l ∉ first.wayOf (directory workspace))
    (hfile : ∀ file ∈ files, l ≠ fileAt first workspace file) :
    resumed.entryAt? l = fresh.entryAt? l := by
  rcases supplied_cases first workspace supply l with ⟨file, data, mode, hf, hsupply, hl⟩ | hnone
  · exact h.supplied_eq hf hsupply hl
  · rw [h.earlier.others l hnone, h.later.others l (by rwa [templateAt_congr h.seeded.cwd])]
    exact h.seeded.others l hway fun file hf => hfile file (h.known file hf)

theorem directories {l : Location} (hl : l ∈ first.wayOf (directory workspace)) :
    resumed.entryAt? l = some .directory :=
  h.later.entries _ _ (h.seeded.directories l hl)

/-- No supplied template stands on the way of the directory. -/
theorem clear : fresh.IsClear (directory workspace) := by
  intro l hl
  rw [wayOf_congr h.earlier.cwd] at hl
  rcases supplied_cases first workspace supply l with ⟨file, data, mode, hf, hsupply, hprefix⟩ | hnone
  · right
    rw [← h.supplied_eq hf hsupply hprefix]
    exact h.directories hl
  · rw [h.earlier.others l hnone]
    exact h.seeded.clear l hl

theorem fits : ∀ file ∈ files, Fits (filePath workspace file) := by
  intro file hf
  rcases h.complete file hf with hexists | ⟨data, hread⟩
  · have hslash := filePath_endsInSlash workspace file
    exact ((h.later.tree.pathExists_iff hslash).mp hexists).1.fits
  · exact fits_filePath hf (hasTemplate_of_read h.later.tree hf hread).1

theorem fits_made : Fits (directory workspace) := by
  have hfirst : "target".toList ∈ files := by decide
  exact fits_directory hfirst (h.fits _ hfirst)

/-- What a template holds is no directory, so that it is not on the way of the directory. -/
theorem template_agree (hf : file ∈ files) {entry : Entry} {data : Bytes}
    (hentry : resumed.entryAt? (templateAt resumed workspace file) = some entry)
    (hdata : entry.data? = some data) :
    fresh.entryAt? (templateAt fresh workspace file) = some entry := by
  rw [templateAt_congr h.cwd] at hentry
  rw [templateAt_congr h.earlier.cwd, ← hentry]
  symm
  refine h.agree (fun hway => ?_) fun other ho => templateAt_ne_fileAt h.tree workspace hf ho
  rw [h.directories hway] at hentry
  obtain rfl := Option.some.inj hentry
  cases hdata

/-- A file that is still missing has a template. -/
theorem template_of_missing (hf : file ∈ files)
    (hnone : resumed.entryAt? (fileAt first workspace file) = none) :
    HasTemplate workspace file resumed := by
  rcases h.complete file hf with hexists | ⟨data, hread⟩
  · have hslash := filePath_endsInSlash workspace file
    have hsome := ((h.later.tree.pathExists_iff hslash).mp hexists).2
    rw [locationOf_congr h.cwd] at hsome
    rw [fileAt] at hnone
    rw [hnone] at hsome
    cases hsome
  · exact hasTemplate_of_read h.later.tree hf hread

/-- A file that was not copied is as it was. -/
theorem uncopied (hf : file ∈ files) (hnot : file ∉ copied)
    (hway : fileAt first workspace file ∉ first.wayOf (directory workspace)) :
    resumed.entryAt? (fileAt first workspace file) =
      first.entryAt? (fileAt first workspace file) := by
  have hstopped := h.seeded.others _ hway fun other ho he =>
    hnot (fileAt_injective h.tree workspace hf (h.known other ho) he ▸ ho)
  rw [← hstopped, ← fileAt_congr h.seeded.cwd]
  exact h.later.file_same h.seeded.tree hf

theorem ready_resumed : IsReady workspace resumed := by
  refine ⟨⟨h.fits_made, fun l hl => ?_⟩, h.fits, fun file hf hm => ?_⟩
  · rw [wayOf_congr h.cwd] at hl
    exact .inr (h.directories hl)
  · obtain ⟨hnone, -⟩ := isMissing_iff.mp hm
    rw [fileAt_congr h.cwd] at hnone
    exact h.template_of_missing hf hnone

theorem ready_fresh : IsReady workspace fresh := by
  refine ⟨⟨h.fits_made, h.clear⟩, h.fits, fun file hf hm => ?_⟩
  obtain ⟨hnone, hway⟩ := isMissing_iff.mp hm
  rw [fileAt_congr h.earlier.cwd] at hnone hway
  rw [h.earlier.file_same h.tree hf] at hnone
  rw [wayOf_congr h.earlier.cwd] at hway
  by_cases hin : file ∈ copied
  · obtain ⟨hfits, entry, data, hentry, hdata⟩ := h.seeded.hasTemplate hf hin
    rw [← templateAt_congr h.earlier.cwd] at hentry
    exact ⟨hfits, entry, data, h.earlier.entries _ _ hentry, hdata⟩
  · have hstill : resumed.entryAt? (fileAt first workspace file) = none := by
      rw [h.uncopied hf hin hway, hnone]
    obtain ⟨hfits, entry, data, hentry, hdata⟩ := h.template_of_missing hf hstill
    exact ⟨hfits, entry, data, h.template_agree hf hentry hdata, hdata⟩

section Ends
variable {last again : Disk}
  (hlast : Seeded workspace (missing resumed workspace) resumed last)
  (hagain : Seeded workspace (missing fresh workspace) fresh again)
include hlast hagain

/-- A file comes to the same whether the first call, the second one or neither copied it. -/
theorem same_file (hf : file ∈ files)
    (hway : fileAt first workspace file ∉ first.wayOf (directory workspace)) :
    last.entryAt? (fileAt first workspace file) = again.entryAt? (fileAt first workspace file) := by
  cases hentry : first.entryAt? (fileAt first workspace file) with
  | some entry =>
    rw [hlast.entries _ _ (h.later.entries _ _ (h.seeded.entries _ _ hentry)),
      hagain.entries _ _ (h.earlier.entries _ _ hentry)]
  | none =>
    have hfresh : file ∈ missing fresh workspace := by
      refine List.mem_filter.mpr ⟨hf, isMissing_iff.mpr ?_⟩
      rw [fileAt_congr h.earlier.cwd, wayOf_congr h.earlier.cwd, h.earlier.file_same h.tree hf]
      exact ⟨hentry, hway⟩
    obtain ⟨template, htemplate, hcopy⟩ := (hagain.copies file hfresh).same
    rw [fileAt_congr h.earlier.cwd] at hcopy
    by_cases hin : file ∈ copied
    · -- its template was there from the start, and is the same on the fresh disk
      obtain ⟨entry, hold, hnew⟩ := (h.seeded.copies file hin).same
      rw [← templateAt_congr h.earlier.cwd] at hold
      obtain rfl := Option.some.inj ((h.earlier.entries _ _ hold).symm.trans htemplate)
      rw [hcopy, hlast.entries _ _ (h.later.entries _ _ hnew)]
    · -- the second call copies it, from a template that both disks have
      have hnone := h.uncopied hf hin hway
      rw [hentry] at hnone
      have hresumed : file ∈ missing resumed workspace := by
        refine List.mem_filter.mpr ⟨hf, isMissing_iff.mpr ?_⟩
        rw [fileAt_congr h.cwd, wayOf_congr h.cwd]
        exact ⟨hnone, hway⟩
      obtain ⟨entry, hold, hnew⟩ := (hlast.copies file hresumed).same
      rw [fileAt_congr h.cwd] at hnew
      obtain ⟨-, held, data, hheld, hdata⟩ := h.template_of_missing hf hnone
      obtain rfl := Option.some.inj (hheld.symm.trans hold)
      obtain rfl := Option.some.inj ((h.template_agree hf hheld hdata).symm.trans htemplate)
      rw [hnew, hcopy]

theorem same_tree (l : Location) : last.entryAt? l = again.entryAt? l := by
  have hresumed := congrFun (wayOf_congr h.cwd) (directory workspace)
  have hfresh := congrFun (wayOf_congr h.earlier.cwd) (directory workspace)
  by_cases hway : l ∈ first.wayOf (directory workspace)
  · rw [hlast.directories l (hresumed ▸ hway), hagain.directories l (hfresh ▸ hway)]
  · by_cases hfile : ∃ file ∈ files, l = fileAt first workspace file
    · obtain ⟨file, hf, rfl⟩ := hfile
      exact h.same_file hlast hagain hf hway
    · push Not at hfile
      have hlater : last.entryAt? l = resumed.entryAt? l := by
        refine hlast.others l (hresumed ▸ hway) fun file hm => ?_
        rw [fileAt_congr h.cwd]
        exact hfile file (List.mem_filter.mp hm).1
      have hearlier : again.entryAt? l = fresh.entryAt? l := by
        refine hagain.others l (hfresh ▸ hway) fun file hm => ?_
        rw [fileAt_congr h.earlier.cwd]
        exact hfile file (List.mem_filter.mp hm).1
      rw [hlater, hearlier]
      exact h.agree hway hfile

end Ends

end Resumption

/-! ## The two histories -/

/-- A call that stopped at a copy can be made again when the templates are supplied, and then
leaves the tree that one call leaves on a tree that had them from the start. -/
def IsResumable (workspace : Bytes) (s : Session) : Prop :=
  ∀ (path : Bytes) (cause : IoError) (left resumed fresh : Session)
    (supply : Text → Option (Bytes × Nat)),
    seed workspace s = .error (.io .copy path cause) left →
    Supplied workspace supply left.disk resumed.disk →
    Supplied workspace supply s.disk fresh.disk →
    (∀ file ∈ files, resumed.disk.pathExists (filePath workspace file) = true ∨
      ∃ data, resumed.disk.read (templatePath workspace file) = .ok data) →
    ∃ names last all again, seed workspace resumed = .ok names last ∧
      seed workspace fresh = .ok all again ∧
      last.disk.cwdLocation? = again.disk.cwdLocation? ∧
      ∀ l, last.disk.entryAt? l = again.disk.entryAt? l

theorem seed_isResumable (workspace : Bytes) {s : Session} (h : s.disk.IsFileTree) :
    IsResumable workspace s := by
  intro path cause left resumed fresh supply hrun hlater hearlier hcomplete
  have hseeding := seed_isSeeding workspace h
  rw [hrun] at hseeding
  rcases hseeding with ⟨⟨other, he⟩, -⟩ | ⟨done, file, later, hstop⟩
  · cases he
  · have hresumption : Resumption workspace supply (done.filter (isMissing s.disk workspace)) s.disk
        left.disk resumed.disk fresh.disk :=
      ⟨h, hstop.seeded, mem_files_of_mem_filter hstop.split, hlater, hearlier, hcomplete⟩
    obtain ⟨last, hlast, hsecond⟩ := seed_of_ready hlater.tree hresumption.ready_resumed
    obtain ⟨again, hagain, hone⟩ := seed_of_ready hearlier.tree hresumption.ready_fresh
    refine ⟨_, last, _, again, hlast, hagain, ?_, hresumption.same_tree hsecond hone⟩
    rw [hsecond.cwd, hone.cwd, hresumption.cwd, hearlier.cwd]

/-- **Seeding a file tree** ends as `IsSeeding` says, and can be resumed where it stopped. -/
theorem seed_seeds_and_resumes (workspace : Bytes) {s : Session} (h : s.disk.IsFileTree) :
    IsSeeding workspace s (seed workspace s) ∧ IsResumable workspace s :=
  ⟨seed_isSeeding workspace h, seed_isResumable workspace h⟩

/-! ## One missing template -/

def only (file : Text) (data : Bytes) (mode : Nat) (other : Text) : Option (Bytes × Nat) :=
  if other = file then some (data, mode) else none

/-- A template can be supplied where its path can be followed and nothing stands. -/
theorem supply_only {disk : Disk} (h : disk.IsFileTree) {workspace : Bytes} {file : Text}
    (hf : file ∈ files) (hreach : disk.IsReachable (templatePath workspace file))
    (hnone : disk.entryAt? (templateAt disk workspace file) = none) (data : Bytes) (mode : Nat) :
    ∃ new, Supplied workspace (only file data mode) disk new := by
  obtain ⟨place, hp⟩ : ∃ place, disk.locate true (templatePath workspace file) = .ok place :=
    h.locate_iff.mpr hreach
  have hnode : place.node = none := by
    rw [h.locate_node hp, ← Option.not_isSome_iff_eq_none, ← entryAt?_isSome h.tree]
    rw [templateAt] at hnone
    simp [hnone]
  obtain ⟨hname, hfree, above, ha, he⟩ := h.free_place hp hnode
  have hgains := (addNode_adds hfree (.file data mode)).gains h hname rfl ha
  rw [← he] at hgains
  refine ⟨_, hgains.keeps, fun other ho bytes rights hsupply => ?_, fun l hl => ?_⟩
  · rw [only] at hsupply
    split at hsupply
    · rename_i hother
      cases hsupply
      rw [hother]
      exact hgains.gained
    · cases hsupply
  · refine hgains.others l fun hat => hl file hf (by simp [only]) ?_
    rw [hat]
    exact List.prefix_rfl

/-- The root as a workspace, without its last template. -/
def twoTemplates : Session where
  disk :=
    { nodes := #[.directory 0 [(toolsName, 1)], .directory 0 [(confName, 2)],
        .directory 1 [(templateName "target".toList, 3), (templateName "tools_def".toList, 4)],
        .file [1] plainMode, .file [2] plainMode]
      cwd := 0 }

theorem twoTemplates_reachable : ∀ file ∈ files,
    twoTemplates.disk.IsReachable (templatePath [Pathname.slash] file) := by decide +kernel

theorem twoTemplates_held : ∀ file ∈ files, file ≠ "build_rule".toList →
    ((twoTemplates.disk.entryAt? (templateAt twoTemplates.disk [Pathname.slash] file)).bind
      Entry.data?).isSome := by decide +kernel

theorem twoTemplates_free : twoTemplates.disk.entryAt?
    (templateAt twoTemplates.disk [Pathname.slash] "build_rule".toList) = none := by decide +kernel

theorem twoTemplates_stop : (seed [Pathname.slash]).error? twoTemplates =
    some (.io .copy (templatePath [Pathname.slash] "build_rule".toList) .notFound) := by
  decide +kernel

theorem seed_resumes_last : twoTemplates.disk.IsFileTree ∧
    ∃ (left resumed fresh : Session) (names : List Text) (last : Session) (all : List Text)
      (again : Session),
      seed [Pathname.slash] twoTemplates =
        .error (.io .copy (templatePath [Pathname.slash] "build_rule".toList) .notFound) left ∧
      Supplied [Pathname.slash] (only "build_rule".toList [3] plainMode) left.disk resumed.disk ∧
      Supplied [Pathname.slash] (only "build_rule".toList [3] plainMode) twoTemplates.disk
        fresh.disk ∧
      seed [Pathname.slash] resumed = .ok names last ∧ seed [Pathname.slash] fresh = .ok all again ∧
      ∀ l, last.disk.entryAt? l = again.disk.entryAt? l := by
  have hd : twoTemplates.disk.IsFileTree := by decide +kernel
  have hfile : "build_rule".toList ∈ files := by decide
  obtain ⟨hseeding, hresumable⟩ := seed_seeds_and_resumes [Pathname.slash] hd
  obtain ⟨left, hrun⟩ := Run.error?_eq_some.mp twoTemplates_stop
  rw [hrun] at hseeding
  rcases hseeding with ⟨⟨other, he⟩, -⟩ | ⟨done, file, later, hstop⟩
  · cases he
  have hs := hstop.seeded
  -- the first call left the place of the last template free
  have hfree : left.disk.entryAt?
      (templateAt left.disk [Pathname.slash] "build_rule".toList) = none := by
    rw [templateAt_congr hs.cwd, ← twoTemplates_free]
    refine hs.others _ (by decide +kernel) fun other ho => ?_
    exact templateAt_ne_fileAt hd _ hfile (mem_files_of_mem_filter hstop.split other ho)
  obtain ⟨resumed, hlater⟩ :=
    supply_only hs.tree hfile (hs.reachable (twoTemplates_reachable _ hfile)) hfree [3] plainMode
  obtain ⟨fresh, hearlier⟩ :=
    supply_only hd hfile (twoTemplates_reachable _ hfile) twoTemplates_free [3] plainMode
  have hkept := hs.toKeepsEntries.trans hlater.toKeepsEntries
  have hread : ∀ file ∈ files, ∃ data,
      resumed.read (templatePath [Pathname.slash] file) = .ok data := by
    intro file hf
    refine hkept.tree.read_of_entry (templatePath_endsInSlash _ hf)
      (hkept.reachable (twoTemplates_reachable _ hf)) ?_
    rw [locationOf_congr hkept.cwd]
    by_cases hlast : file = "build_rule".toList
    · subst hlast
      have hput := hlater.put _ hf [3] plainMode (by simp [only])
      rw [templateAt_congr hs.cwd, templateAt] at hput
      exact ⟨_, _, hput, rfl⟩
    · obtain ⟨data, hdata⟩ := Option.isSome_iff_exists.mp (twoTemplates_held file hf hlast)
      obtain ⟨entry, hentry, hdata⟩ := Option.bind_eq_some_iff.mp hdata
      exact ⟨entry, data, hkept.entries _ _ hentry, hdata⟩
  obtain ⟨names, last, all, again, hsecond, hone, -, hsame⟩ :=
    hresumable _ _ left { disk := resumed } { disk := fresh } _ hrun hlater hearlier
      fun file hf => .inr (hread file hf)
  exact ⟨hd, left, { disk := resumed }, { disk := fresh }, names, last, all, again, hrun,
    hlater, hearlier, hsecond, hone, hsame⟩

end FirmwareBuild.ConfDirectory
