import FirmwareBuild.Proofs.ConfLocations

/-! # Seeding a file tree

Making the configuration directory puts directories on the whole way that its path
spells, and each copy gives one location what stands at another one. So what seeding
leaves is known at every location, whether it succeeds or stops (`seed_isSeeding`), and
what it needs to succeed (`seed_succeeds_iff`). The path of a workspace can lead through
the very place of a configuration file. That place is then a directory before any file
is looked at, and the file is not missing. -/

namespace FirmwareBuild.ConfDirectory

open Disk

/-- Nothing stands at the location of a file, and making the directory puts nothing there. -/
def isMissing (disk : Disk) (workspace : Bytes) (file : Text) : Bool :=
  (disk.entryAt? (fileAt disk workspace file)).isNone &&
    decide (fileAt disk workspace file ∉ disk.wayOf (directory workspace))

def missing (disk : Disk) (workspace : Bytes) : List Text :=
  files.filter (isMissing disk workspace)

theorem isMissing_iff {disk : Disk} {workspace : Bytes} {file : Text} :
    isMissing disk workspace file = true ↔ disk.entryAt? (fileAt disk workspace file) = none ∧
      fileAt disk workspace file ∉ disk.wayOf (directory workspace) := by
  simp [isMissing]

/-- A file is all that its template was, and both can be read. -/
structure IsCopied (workspace : Bytes) (file : Text) (old new : Disk) : Prop where
  same : ∃ entry, old.entryAt? (templateAt old workspace file) = some entry ∧
    new.entryAt? (fileAt old workspace file) = some entry
  readable : ∃ data, new.read (templatePath workspace file) = .ok data ∧
    new.read (filePath workspace file) = .ok data

/-- The directory is made and some files are copied. All else is as it was. -/
structure Seeded (workspace : Bytes) (copied : List Text) (old new : Disk) : Prop
    extends KeepsEntries old new where
  directories : ∀ l ∈ old.wayOf (directory workspace), new.entryAt? l = some .directory
  copies : ∀ file ∈ copied, IsCopied workspace file old new
  others : ∀ l, l ∉ old.wayOf (directory workspace) →
    (∀ file ∈ copied, l ≠ fileAt old workspace file) → new.entryAt? l = old.entryAt? l

theorem IsCopied.kept {workspace : Bytes} {file : Text} {old mid new : Disk} (hm : mid.IsFileTree)
    (hf : file ∈ files) (h : IsCopied workspace file old mid) (hkept : KeepsEntries mid new) :
    IsCopied workspace file old new := by
  obtain ⟨⟨entry, hold, hmid⟩, data, htemplate, hfile⟩ := h
  refine ⟨⟨entry, hold, hkept.entries _ _ hmid⟩, data, ?_, ?_⟩
  · exact hm.read_kept (templatePath_endsInSlash workspace hf) hkept htemplate
  · exact hm.read_kept (filePath_endsInSlash workspace file) hkept hfile

theorem plain_directory (workspace : Bytes) : Pathname.EndsPlainly (directory workspace) := by
  intro hlast
  rw [names_directory, List.getLast?_concat] at hlast
  exact absurd hlast (by decide)

/-! ## The steps of seeding -/

section Steps
variable {workspace : Bytes} {copied : List Text} {file : Text} {old mid new : Disk}

theorem Seeded.begin (hold : old.IsMakeable (directory workspace))
    (hmakes : Makes (old.wayOf (directory workspace)) old new) : Seeded workspace [] old new := by
  refine ⟨⟨hmakes.tree, hmakes.cwd, fun l entry hl => ?_⟩, hmakes.directories, nofun, ?_⟩
  · by_cases hin : l ∈ old.wayOf (directory workspace)
    · rcases hold.2 l hin with hnone | hdirectory
      · cases hl.symm.trans hnone
      · rw [hmakes.directories l hin, ← hdirectory, hl]
    · rw [hmakes.others l hin, hl]
  · intro l hl _
    exact hmakes.others l hl

/-- The directory that was made can be found by its path. -/
theorem Seeded.isDirectory_directory (h : old.IsFileTree) (hs : Seeded workspace copied old new)
    (hfits : Fits (directory workspace)) : new.isDirectory (directory workspace) = true := by
  have hway := wayOf_congr hs.cwd
  refine hs.tree.isDirectory_iff.mpr ⟨⟨?_, hfits, fun l hl => ?_⟩, ?_⟩
  · intro hempty
    have hnames := names_directory workspace
    rw [hempty] at hnames
    simp at hnames
  · rw [hway] at hl
    exact hs.directories l (h.mem_wayOf.mpr (.inl hl))
  · rw [locationOf_congr hs.cwd]
    exact hs.directories _ (h.mem_wayOf.mpr (.inr rfl))

section Lookup
variable (h : old.IsFileTree) (hs : Seeded workspace copied old new)
  (hcopied : ∀ f ∈ copied, f ∈ files) (hf : file ∈ files)
include h hs hcopied hf

/-- What was copied and what was there before is all that can be found. -/
theorem Seeded.entry_isSome : (new.entryAt? (fileAt old workspace file)).isSome ↔
    isMissing old workspace file = false ∨ file ∈ copied := by
  constructor
  · intro hsome
    by_cases hin : file ∈ copied
    · exact .inr hin
    · left
      rw [← Bool.not_eq_true, isMissing_iff]
      rintro ⟨hnone, hway⟩
      have hsame := hs.others _ hway fun f hm he =>
        hin (fileAt_injective h workspace hf (hcopied f hm) he ▸ hm)
      rw [hsame, hnone] at hsome
      cases hsome
  · rintro (hthere | hin)
    · rw [← Bool.not_eq_true, isMissing_iff] at hthere
      by_cases hway : fileAt old workspace file ∈ old.wayOf (directory workspace)
      · simp [hs.directories _ hway]
      · cases hentry : old.entryAt? (fileAt old workspace file) with
        | none => exact absurd ⟨hentry, hway⟩ hthere
        | some entry => simp [hs.entries _ _ hentry]
    · obtain ⟨entry, -, hentry⟩ := (hs.copies file hin).same
      simp [hentry]

omit h hcopied in
theorem Seeded.filePath_reachable :
    new.IsReachable (filePath workspace file) ↔ Fits (filePath workspace file) := by
  refine ⟨fun hreach => hreach.fits, fun hfits => ⟨?_, hfits, fun l hl => ?_⟩⟩
  · intro hempty
    have hnames := names_filePath workspace hf
    rw [hempty] at hnames
    simp at hnames
  · rw [dropLast_wayOf_filePath workspace hf, wayOf_congr hs.cwd] at hl
    exact hs.directories l hl

theorem Seeded.pathExists_iff : new.pathExists (filePath workspace file) = true ↔
    Fits (filePath workspace file) ∧ (isMissing old workspace file = false ∨ file ∈ copied) := by
  rw [hs.tree.pathExists_iff (filePath_endsInSlash workspace file), hs.filePath_reachable hf,
    locationOf_congr hs.cwd]
  exact and_congr_right fun _ => hs.entry_isSome h hcopied hf

/-- What holds data is no directory and so was there from the start. -/
theorem Seeded.template_before {entry : Entry} {data : Bytes}
    (hentry : new.entryAt? (templateAt old workspace file) = some entry)
    (hdata : entry.data? = some data) :
    old.entryAt? (templateAt old workspace file) = some entry := by
  rw [← hentry]
  symm
  refine hs.others _ (fun hway => ?_) fun f hm => ?_
  · rw [hs.directories _ hway] at hentry
    obtain rfl := Option.some.inj hentry
    cases hdata
  · exact templateAt_ne_fileAt h workspace hf (hcopied f hm)

end Lookup

/-- One more copy. -/
theorem Seeded.snoc (h : old.IsFileTree) (hs : Seeded workspace copied old mid)
    (hcopied : ∀ f ∈ copied, f ∈ files) (hf : file ∈ files) {entry : Entry}
    (hcopy : mid.IsCopyable (templatePath workspace file) (filePath workspace file))
    (hentry : mid.entryAt? (mid.locationOf (templatePath workspace file)) = some entry)
    (hgains : Gains (mid.locationOf (filePath workspace file)) entry mid new) :
    Seeded workspace (copied ++ [file]) old new := by
  have hkeeps := hgains.keeps
  obtain ⟨⟨data, hread⟩, hreach⟩ := hcopy
  have htemplate := templatePath_endsInSlash workspace hf
  obtain ⟨-, held, hheld, hdata⟩ := (hs.tree.read_iff htemplate).mp hread
  obtain rfl := Option.some.inj (hentry.symm.trans hheld)
  have hnew : new.read (filePath workspace file) = .ok data := by
    rw [hgains.tree.read_iff (filePath_endsInSlash workspace file), locationOf_congr hgains.cwd]
    exact ⟨hkeeps.reachable hreach, entry, hgains.gained, hdata⟩
  have hfile : mid.locationOf (filePath workspace file) = fileAt old workspace file := by
    rw [locationOf_congr hs.cwd, fileAt]
  rw [locationOf_congr hs.cwd] at hentry
  rw [hfile] at hgains
  refine ⟨hs.toKeepsEntries.trans hkeeps, fun l hl => ?_, fun f hm => ?_, fun l hl hm => ?_⟩
  · exact hkeeps.entries l _ (hs.directories l hl)
  · rcases List.mem_append.mp hm with hm | hm
    · exact (hs.copies f hm).kept hs.tree (hcopied f hm) hkeeps
    · obtain rfl := List.mem_singleton.mp hm
      refine ⟨⟨entry, ?_, hgains.gained⟩, data, hs.tree.read_kept htemplate hkeeps hread, hnew⟩
      exact hs.template_before h hcopied hf hentry hdata
  · rw [hgains.others l (hm file (by simp))]
    exact hs.others l hl fun f hf => hm f (by simp [hf])

end Steps

/-! ## Whole runs -/

/-- Seeding stops at a file that cannot be copied, when those before it are complete. -/
structure StopsAt (workspace : Bytes) (old new : Disk) (e : BuildError) (done : List Text)
    (file : Text) (later : List Text) : Prop where
  split : files = done ++ file :: later
  error : ∃ cause, e = .io .copy (templatePath workspace file) cause
  absent : new.pathExists (filePath workspace file) = false
  failed : ¬ new.IsCopyable (templatePath workspace file) (filePath workspace file)
  seeded : Seeded workspace (done.filter (isMissing old workspace)) old new
  untouched : ∀ f ∈ file :: later,
    new.fileAt? (fileAt old workspace f) = old.fileAt? (fileAt old workspace f)

def IsCopyRun (workspace : Bytes) (old : Disk) (rest : List Text) :
    EStateM.Result BuildError Session (List Text) → Prop
  | .ok names left => names = rest.filter (isMissing old workspace) ∧
      Seeded workspace (missing old workspace) old left.disk ∧
      ∀ file ∈ rest, Fits (filePath workspace file)
  | .error e left => ∃ done file later, StopsAt workspace old left.disk e done file later

def IsSeeding (workspace : Bytes) (s : Session) :
    EStateM.Result BuildError Session (List Text) → Prop
  | .ok names left => names = missing s.disk workspace ∧
      Seeded workspace names s.disk left.disk ∧
      (∀ file ∈ files, left.disk.pathExists (filePath workspace file) = true) ∧
      seed workspace left = .ok [] left
  | .error e left =>
      (∃ cause, e = .io .create (directory workspace) cause) ∧
        ¬ s.disk.IsMakeable (directory workspace) ∧ s.disk.SameFiles left.disk ∨
      ∃ done file later, StopsAt workspace s.disk left.disk e done file later

section Runs
variable {workspace : Bytes} {old new : Disk}

theorem files_nodup : files.Nodup := by decide

theorem mem_files_of_mem_filter {done back : List Text} (hfiles : files = done ++ back) :
    ∀ f ∈ done.filter (isMissing old workspace), f ∈ files := by
  intro f hm
  rw [hfiles]
  exact List.mem_append_left _ (List.mem_filter.mp hm).1

/-- Neither what is new nor what was there gives a later file other data. -/
theorem Seeded.untouched (h : old.IsFileTree) {done back : List Text}
    (hfiles : files = done ++ back)
    (hs : Seeded workspace (done.filter (isMissing old workspace)) old new) :
    ∀ f ∈ back, new.fileAt? (fileAt old workspace f) = old.fileAt? (fileAt old workspace f) := by
  intro f hf
  have hmem : f ∈ files := by
    rw [hfiles]
    exact List.mem_append_right _ hf
  rw [fileAt?_eq_entryAt?, fileAt?_eq_entryAt?]
  by_cases hway : fileAt old workspace f ∈ old.wayOf (directory workspace)
  · -- a directory holds no data, neither a new one nor one that was there
    rw [hs.directories _ hway]
    cases hentry : old.entryAt? (fileAt old workspace f) with
    | none => rfl
    | some entry => rw [← hs.directories _ hway, hs.entries _ _ hentry]
  · rw [hs.others _ hway fun other hm he => ?_]
    obtain rfl := fileAt_injective h workspace hmem (mem_files_of_mem_filter hfiles other hm) he
    have hnodup := files_nodup
    rw [hfiles, List.nodup_append] at hnodup
    exact hnodup.2.2 f (List.mem_filter.mp hm).1 f hf rfl

/-- Copying goes on from a disk where the files before the rest are complete. -/
theorem copyMissing_isCopyRun (h : old.IsFileTree) {before rest : List Text} {s : Session}
    (hfiles : files = before ++ rest)
    (hs : Seeded workspace (before.filter (isMissing old workspace)) old s.disk) :
    IsCopyRun workspace old rest (copyMissing workspace rest s) := by
  -- a file of the rest goes over to those before it, with a copy if it was missing
  induction rest generalizing before s with
  | nil =>
    refine ⟨rfl, ?_, nofun⟩
    rw [List.append_nil] at hfiles
    rw [missing, hfiles]
    exact hs
  | cons file rest ih =>
    have hf : file ∈ files := by simp [hfiles]
    have hcopied : ∀ f ∈ before.filter (isMissing old workspace), f ∈ files :=
      mem_files_of_mem_filter hfiles
    -- each file comes once, so that no copy that was made is its own
    have hnotin : file ∉ before.filter (isMissing old workspace) := by
      have hnodup := files_nodup
      rw [hfiles, List.nodup_append] at hnodup
      intro hm
      exact hnodup.2.2 file (List.mem_filter.mp hm).1 file List.mem_cons_self rfl
    have hnext : files = before ++ [file] ++ rest := by simp [hfiles]
    cases hexists : s.disk.pathExists (filePath workspace file) with
    | true =>
      obtain ⟨hfits, hthere⟩ := (hs.pathExists_iff h hcopied hf).mp hexists
      have hthere : isMissing old workspace file = false := hthere.resolve_right hnotin
      rw [copyMissing_of_exists hexists]
      have hrun := ih hnext (s := s) (by simpa [hthere] using hs)
      cases hc : copyMissing workspace rest s with
      | ok names left =>
        rw [hc] at hrun
        obtain ⟨hnames, hseeded, hrest⟩ := hrun
        exact ⟨by simp [hnames, hthere], hseeded, List.forall_mem_cons.mpr ⟨hfits, hrest⟩⟩
      | error e left =>
        rw [hc] at hrun
        exact hrun
    | false =>
      have hcopy := copy_spec hs.tree (templatePath_endsInSlash workspace hf)
        (filePath_endsInSlash workspace file) hexists
      rw [copyMissing_of_missing hexists]
      cases hc : Disk.copy (templatePath workspace file) (filePath workspace file) s.disk with
      | ok u mid =>
        rw [hc] at hcopy
        obtain ⟨hcopyable, entry, hentry, hgains⟩ := hcopy
        have hfits := hcopyable.target.fits
        have hmissing : isMissing old workspace file = true := by
          by_contra hthere
          rw [(hs.pathExists_iff h hcopied hf).mpr ⟨hfits, .inl (by simpa using hthere)⟩] at hexists
          cases hexists
        have hsnoc := hs.snoc h hcopied hf hcopyable hentry hgains
        have hrun := ih hnext (s := { s with disk := mid }) (by simpa [hmissing] using hsnoc)
        rw [Run.bind_of_ok (Run.onDisk_ok hc _ _)]
        cases hrest : copyMissing workspace rest { s with disk := mid } with
        | ok names left =>
          rw [hrest] at hrun
          obtain ⟨hnames, hseeded, hfitsRest⟩ := hrun
          rw [Run.bind_of_ok hrest]
          exact ⟨by simp [hnames, hmissing], hseeded, List.forall_mem_cons.mpr ⟨hfits, hfitsRest⟩⟩
        | error e left =>
          rw [hrest] at hrun
          rw [Run.bind_of_error hrest]
          exact hrun
      | error cause mid =>
        rw [hc] at hcopy
        obtain ⟨rfl, hfails⟩ := hcopy
        rw [Run.bind_of_error (Run.onDisk_error hc _ _)]
        exact ⟨before, file, rest, hfiles, ⟨cause, rfl⟩, hexists, hfails, hs,
          hs.untouched h hfiles⟩

theorem copyMissing_of_all {s : Session} {rest : List Text}
    (h : ∀ file ∈ rest, s.disk.pathExists (filePath workspace file) = true) :
    copyMissing workspace rest s = .ok [] s := by
  induction rest with
  | nil => rfl
  | cons file rest ih =>
    obtain ⟨hfile, hrest⟩ := List.forall_mem_cons.mp h
    rw [copyMissing_of_exists hfile]
    exact ih hrest

/-- A workspace with all of its configuration is left alone. -/
theorem seed_of_all {s : Session} (hd : s.disk.IsFileTree)
    (hdirectory : s.disk.isDirectory (directory workspace) = true)
    (h : ∀ file ∈ files, s.disk.pathExists (filePath workspace file) = true) :
    seed workspace s = .ok [] s := by
  have hmake := hd.makeDirectories_of_directory hdirectory
  rw [seed, Run.bind_of_ok (Run.onDisk_ok hmake _ _)]
  exact copyMissing_of_all h

end Runs

/-- **What seeding does to a file tree.** -/
theorem seed_isSeeding (workspace : Bytes) {s : Session} (h : s.disk.IsFileTree) :
    IsSeeding workspace s (seed workspace s) := by
  have hsame := makeDirectories_sameFiles h.tree (directory workspace)
  have hmaking := IsFileTree.makeDirectories_spec h (plain_directory workspace)
  cases hm : Disk.makeDirectories (directory workspace) s.disk with
  | error cause made =>
    rw [hm] at hsame hmaking
    rw [seed, Run.bind_of_error (Run.onDisk_error hm _ _)]
    exact .inl ⟨⟨cause, rfl⟩, hmaking, hsame⟩
  | ok u made =>
    rw [hm] at hmaking
    obtain ⟨hmakeable, hmakes⟩ := hmaking
    have hrun := copyMissing_isCopyRun (s := { s with disk := made }) h (List.nil_append _).symm
      (Seeded.begin hmakeable hmakes)
    rw [seed, Run.bind_of_ok (Run.onDisk_ok hm _ _)]
    cases hc : copyMissing workspace files { s with disk := made } with
    | ok names left =>
      rw [hc] at hrun
      obtain ⟨hnames, hs, hfits⟩ := hrun
      have hall : ∀ file ∈ files, left.disk.pathExists (filePath workspace file) = true := by
        intro file hf
        rw [hs.pathExists_iff h (fun f hm => (List.mem_filter.mp hm).1) hf]
        refine ⟨hfits file hf, ?_⟩
        cases hmissing : isMissing s.disk workspace file with
        | true => exact .inr (List.mem_filter.mpr ⟨hf, hmissing⟩)
        | false => exact .inl rfl
      rw [hnames]
      exact ⟨rfl, hs, hall, seed_of_all hs.tree (hs.isDirectory_directory h hmakeable.1) hall⟩
    | error e left =>
      rw [hc] at hrun
      exact .inr hrun

/-- The templates of a workspace `/a` that has no configuration. -/
def unseeded : Session where
  disk :=
    { nodes := #[.directory 0 [(Utf8.encode "a".toList, 1)], .directory 0 [(toolsName, 2)],
        .directory 1 [(confName, 3)],
        .directory 2 [(templateName "target".toList, 4), (templateName "tools_def".toList, 5),
          (templateName "build_rule".toList, 6)],
        .file [1] plainMode, .file [2] plainMode, .file [3] plainMode]
      cwd := 0 }

/-- The workspace by a path that leads through the place of one of its files. -/
def throughTarget : Bytes := Utf8.encode "/a/Conf/target.txt/../..".toList

/-- A path can turn the place of a file into a directory, so that nothing is copied there. -/
theorem seed_through_target : unseeded.disk.IsFileTree ∧
    (∀ file ∈ files, unseeded.disk.pathExists (filePath throughTarget file) = false ∧
      unseeded.disk.entryAt? (fileAt unseeded.disk throughTarget file) = none) ∧
    ∃ left, seed throughTarget unseeded = .ok (["tools_def", "build_rule"].map String.toList) left ∧
      left.disk.isDirectory (filePath throughTarget "target".toList) = true := by
  have hd : unseeded.disk.IsFileTree := by decide +kernel
  have hsucceeds : (match seed throughTarget unseeded with
    | .ok _ left => left.disk.isDirectory (filePath throughTarget "target".toList)
    | .error _ _ => false) = true := by decide +kernel
  have hmissing : missing unseeded.disk throughTarget =
      ["tools_def", "build_rule"].map String.toList := by decide +kernel
  refine ⟨hd, by decide +kernel, ?_⟩
  have hseeding := seed_isSeeding throughTarget hd
  cases hrun : seed throughTarget unseeded with
  | ok names left =>
    rw [hrun] at hsucceeds hseeding
    obtain ⟨rfl, -⟩ := hseeding
    exact ⟨left, by rw [hmissing], hsucceeds⟩
  | error e left =>
    rw [hrun] at hsucceeds
    cases hsucceeds

/-! ## What seeding needs -/

/-- The template of a file holds data, and its path can be followed when the directories of the
workspace are there. -/
def HasTemplate (workspace : Bytes) (file : Text) (disk : Disk) : Prop :=
  Fits (templatePath workspace file) ∧ ∃ entry data,
    disk.entryAt? (templateAt disk workspace file) = some entry ∧ entry.data? = some data

structure IsReady (workspace : Bytes) (disk : Disk) : Prop where
  makeable : disk.IsMakeable (directory workspace)
  fits : ∀ file ∈ files, Fits (filePath workspace file)
  templates : ∀ file ∈ files, isMissing disk workspace file = true →
    HasTemplate workspace file disk

section Congr
variable {old new : Disk} (h : new.cwdLocation? = old.cwdLocation?)
include h

theorem fileAt_congr : fileAt new = fileAt old := by
  funext workspace file
  rw [fileAt, fileAt, locationOf_congr h]

theorem templateAt_congr : templateAt new = templateAt old := by
  funext workspace file
  rw [templateAt, templateAt, locationOf_congr h]

end Congr

theorem fits_directory {workspace : Bytes} {file : Text} (hf : file ∈ files)
    (h : Fits (filePath workspace file)) : Fits (directory workspace) :=
  h.of_join (fileName_facts file hf).1

/-- A template that can be read holds data. -/
theorem hasTemplate_of_read {disk : Disk} (h : disk.IsFileTree) {workspace : Bytes} {file : Text}
    (hf : file ∈ files) {data : Bytes}
    (hread : disk.read (templatePath workspace file) = .ok data) :
    HasTemplate workspace file disk := by
  obtain ⟨hreach, entry, hentry, hdata⟩ :=
    (h.read_iff (templatePath_endsInSlash workspace hf)).mp hread
  exact ⟨hreach.fits, entry, data, hentry, hdata⟩

section Seeded
variable {workspace : Bytes} {copied : List Text} {file : Text} {old new : Disk}
  (hs : Seeded workspace copied old new)
include hs

/-- Where the directory could be made nothing else stood on its way. -/
theorem Seeded.clear : old.IsClear (directory workspace) := by
  intro l hl
  cases hentry : old.entryAt? l with
  | none => exact .inl rfl
  | some entry =>
    right
    rw [← hs.directories l hl, hs.entries _ _ hentry]

/-- A template that stands when the directory is made can be read. -/
theorem Seeded.read_template (hf : file ∈ files) (htemplate : HasTemplate workspace file old) :
    ∃ data, new.read (templatePath workspace file) = .ok data := by
  obtain ⟨hfits, entry, data, hentry, hdata⟩ := htemplate
  have hkept := hs.entries _ _ hentry
  rw [← templateAt_congr hs.cwd] at hkept
  have hway : ∀ l ∈ new.wayOf workspace, new.entryAt? l = some .directory := by
    intro l hl
    rw [wayOf_congr hs.cwd] at hl
    refine hs.directories l ?_
    rw [wayOf_directory]
    exact List.mem_append_left _ hl
  have hreach := template_reachable hs.tree workspace hf hfits hway (Option.isSome_of_eq_some hkept)
  exact hs.tree.read_of_entry (templatePath_endsInSlash workspace hf) hreach
    ⟨entry, data, hkept, hdata⟩

/-- What was copied had a template before. -/
theorem Seeded.hasTemplate (hf : file ∈ files) (hin : file ∈ copied) :
    HasTemplate workspace file old := by
  obtain ⟨⟨entry, hold, -⟩, data, hread, -⟩ := hs.copies file hin
  obtain ⟨hfits, held, data, hheld, hdata⟩ := hasTemplate_of_read hs.tree hf hread
  rw [templateAt_congr hs.cwd, hs.entries _ _ hold] at hheld
  obtain rfl := Option.some.inj hheld
  exact ⟨hfits, entry, data, hold, hdata⟩

end Seeded

theorem seed_of_ready {workspace : Bytes} {s : Session} (h : s.disk.IsFileTree)
    (hready : IsReady workspace s.disk) : ∃ left,
      seed workspace s = .ok (missing s.disk workspace) left ∧
        Seeded workspace (missing s.disk workspace) s.disk left.disk := by
  have hseeding := seed_isSeeding workspace h
  cases hrun : seed workspace s with
  | ok names left =>
    rw [hrun] at hseeding
    obtain ⟨rfl, hs, -⟩ := hseeding
    exact ⟨left, rfl, hs⟩
  | error e left =>
    rw [hrun] at hseeding
    rcases hseeding with ⟨-, hnot, -⟩ | ⟨done, file, later, hstop⟩
    · exact absurd hready.makeable hnot
    · have hs := hstop.seeded
      have hf : file ∈ files := by simp [hstop.split]
      have hfits := hready.fits file hf
      have hmissing : isMissing s.disk workspace file = true := by
        by_contra hthere
        have hexists := (hs.pathExists_iff h (mem_files_of_mem_filter hstop.split) hf).mpr
          ⟨hfits, .inl (by simpa using hthere)⟩
        rw [hstop.absent] at hexists
        cases hexists
      have hread := hs.read_template hf (hready.templates file hf hmissing)
      exact absurd ⟨hread, (hs.filePath_reachable hf).mpr hfits⟩ hstop.failed

/-- **Seeding succeeds exactly on a disk that is ready.** -/
theorem seed_succeeds_iff (workspace : Bytes) {s : Session} (h : s.disk.IsFileTree) :
    (seed workspace).succeeds s = true ↔ IsReady workspace s.disk := by
  constructor
  · intro hsucceeds
    have hseeding := seed_isSeeding workspace h
    unfold Run.succeeds at hsucceeds
    cases hrun : seed workspace s with
    | ok names left =>
      rw [hrun] at hseeding
      obtain ⟨rfl, hs, hall, -⟩ := hseeding
      have hfits : ∀ file ∈ files, Fits (filePath workspace file) := by
        intro file hf
        have hslash := filePath_endsInSlash workspace file
        exact ((hs.tree.pathExists_iff hslash).mp (hall file hf)).1.fits
      have hfirst : "target".toList ∈ files := by decide
      refine ⟨⟨fits_directory hfirst (hfits _ hfirst), hs.clear⟩, hfits, fun file hf hm => ?_⟩
      exact hs.hasTemplate hf (List.mem_filter.mpr ⟨hf, hm⟩)
    | error e left =>
      rw [hrun] at hsucceeds
      cases hsucceeds
  · intro hready
    obtain ⟨left, hrun, -⟩ := seed_of_ready h hready
    rw [Run.succeeds, hrun]

end FirmwareBuild.ConfDirectory
