import FirmwareBuild.Proofs.RootedSteps
import FirmwareBuild.Proofs.RunFrame

/-! # The files that staging leaves

Staging takes one entry of the manifest after the other, and the paths of an entry
are completed by the disk as it then is. In a rooted tree they name the same
locations throughout. So where no source is a destination, each destination ends up
with what the source of its last entry held at the start, and all that is new
besides are directories on the way to destinations (`stage_copies`). -/

namespace FirmwareBuild

namespace Disk

/-- A location on the way to a path: where a start of its names leads, `..` among them. -/
def IsAncestor (disk : Disk) (path : Bytes) (location : Location) : Prop :=
  ∃ front, front <+: (disk.route path).dropLast ∧ Pathname.follow [] front = location

theorem route_congr {old new : Disk} (h : new.cwdLocation? = old.cwdLocation?) :
    new.route = old.route := by
  funext path
  rw [route, route, h]

theorem route_join (disk : Disk) (base : Bytes) {path : Bytes}
    (h : Pathname.isAbsolute path = false) : disk.route (Pathname.join base path) =
      disk.route base ++ (Pathname.names path).filter (· ≠ Pathname.here) := by
  rw [route, route, Pathname.isAbsolute_join base h, Pathname.names_join base h,
    List.filter_append, List.append_assoc]

end Disk

theorem Run.disk_after_onDisk {α : Type} (action : FileAction) (path : Bytes)
    (change : Disk.Change α) (s : Session) :
    ((onDisk action path change).after s).disk = Disk.left (change s.disk) := by
  cases h : change s.disk with
  | ok a disk => rw [after_ok (onDisk_ok h action path), Disk.left]
  | error cause disk => rw [after_error (onDisk_error h action path), Disk.left]

namespace Staging

open Disk

def sourcePath (root : Bytes) (entry : CopyEntry) : Bytes :=
  Pathname.join root (Utf8.encode entry.source)

def destinationPath (root : Bytes) (entry : CopyEntry) : Bytes :=
  Pathname.join root (Utf8.encode entry.destination)

def sourceAt (disk : Disk) (root : Bytes) (entry : CopyEntry) : Location :=
  disk.locationOf (sourcePath root entry)

def destinationAt (disk : Disk) (root : Bytes) (entry : CopyEntry) : Location :=
  disk.locationOf (destinationPath root entry)

/-! ## The steps of one entry -/

def makeAbove (destination : Bytes) : Run Unit :=
  match Pathname.parent? destination with
  | some parent => Run.onDisk .create parent (Disk.makeDirectories parent)
  | none => pure ()

def copyAloud (source destination : Bytes) : Run Unit := do
  Run.say ("Copy:  ".toList ++ Utf8.decodeLossy source)
  Run.say ("  To:  ".toList ++ Utf8.decodeLossy destination)
  Run.onDisk .copy source (Disk.copy source destination)

theorem stageEntry_eq (sourceRoot destinationRoot : Bytes) (entry : CopyEntry) (s : Session) :
    stageEntry sourceRoot destinationRoot entry s =
      (makeAbove (place s.disk destinationRoot entry.destination) >>= fun _ =>
        copyAloud (place s.disk sourceRoot entry.source)
          (place s.disk destinationRoot entry.destination)) s := by
  rw [stageEntry, Run.get_bind]
  unfold makeAbove
  cases Pathname.parent? (place s.disk destinationRoot entry.destination) <;> rfl

theorem place_spec {disk : Disk} (h : disk.IsRooted) (root : Bytes) (path : Text) :
    (Pathname.join root (Utf8.encode path) = [] ∧ place disk root path = []) ∨
      (Pathname.isAbsolute (place disk root path) = true ∧
        Pathname.names (place disk root path) =
          disk.route (Pathname.join root (Utf8.encode path))) := by
  unfold place
  dsimp only
  by_cases hne : Pathname.join root (Utf8.encode path) = []
  · rw [hne]
    exact .inl ⟨rfl, rfl⟩
  · obtain ⟨full, hfull⟩ := h.absolute_ok hne
    rw [hfull]
    exact .inr (h.absolute_names hfull)

theorem copy_empty (disk : Disk) {source target : Bytes} (h : source = [] ∨ target = []) :
    ∃ cause, Disk.copy source target disk = .error cause disk := by
  rcases h with rfl | rfl
  · exact ⟨.notFound, rfl⟩
  · exact copy_unopened source fun mode => ⟨.notFound, rfl⟩

section Entry
variable {s : Session}

/-- The directory of a destination is made, as far as it can be, on the way to the destination. -/
theorem makeAbove_grows (h : s.disk.IsRooted) (root : Bytes) (path : Text) :
    GrowsAt (s.disk.IsAncestor (Pathname.join root (Utf8.encode path))) s.disk
      ((makeAbove (place s.disk root path)).after s).disk := by
  unfold makeAbove
  cases hparent : Pathname.parent? (place s.disk root path) with
  | none => exact .refl h
  | some parent =>
    rcases place_spec h root path with ⟨-, hempty⟩ | ⟨habsolute, hnames⟩
    · rw [hempty] at hparent
      cases hparent
    · obtain ⟨habove, hprefix⟩ := Pathname.parent?_names hparent habsolute
      rw [hnames] at hprefix
      have hway (location : Location) : (∃ front, front <+: Pathname.names parent ∧
          Pathname.follow [] front = location) →
            s.disk.IsAncestor (Pathname.join root (Utf8.encode path)) location := by
        rintro ⟨front, hf, he⟩
        exact ⟨front, hf.trans hprefix, he⟩
      dsimp only
      rw [Run.disk_after_onDisk]
      exact (makeDirectories_grows h habove).mono hway

theorem copyAloud_eq (source destination : Bytes) (s : Session) :
    ∃ said : Session, said.disk = s.disk ∧ copyAloud source destination s =
      Run.onDisk .copy source (Disk.copy source destination) said := by
  rw [copyAloud, Run.say_bind, Run.say_bind]
  refine ⟨_, ?_, rfl⟩
  rfl

/-- A copy between the places of an entry. They are absolute, so any rooted tree will do. -/
theorem place_isCopy (h : s.disk.IsRooted) {middle : Disk} (hm : middle.IsRooted)
    (sourceRoot destinationRoot : Bytes) (entry : CopyEntry) :
    IsCopy (sourceAt s.disk sourceRoot entry) (destinationAt s.disk destinationRoot entry) middle
      (Disk.copy (place s.disk sourceRoot entry.source)
        (place s.disk destinationRoot entry.destination) middle) := by
  rcases place_spec h sourceRoot entry.source with ⟨-, hempty⟩ | ⟨hs, hsource⟩
  · obtain ⟨cause, hfails⟩ := copy_empty middle (.inl hempty)
    rw [hfails]
    rfl
  · rcases place_spec h destinationRoot entry.destination with ⟨-, hempty⟩ | ⟨ht, htarget⟩
    · obtain ⟨cause, hfails⟩ := copy_empty middle (.inr hempty)
      rw [hfails]
      rfl
    · have hcopy := copy_rooted hm hs ht
      rw [hsource, htarget] at hcopy
      exact hcopy

/-- **What one entry does.** It makes directories on the way to its destination, and then it gives
the destination the data of its source or, if it fails, touches no file. -/
theorem stageEntry_cases (sourceRoot destinationRoot : Bytes) (entry : CopyEntry)
    (h : s.disk.IsRooted) :
    (∃ e left, stageEntry sourceRoot destinationRoot entry s = .error e left ∧
      GrowsAt (s.disk.IsAncestor (destinationPath destinationRoot entry)) s.disk left.disk) ∨
    ∃ ready data left, stageEntry sourceRoot destinationRoot entry s = .ok () left ∧
      GrowsAt (s.disk.IsAncestor (destinationPath destinationRoot entry)) s.disk ready ∧
      ready.fileAt? (sourceAt s.disk sourceRoot entry) = some data ∧
      CopiesTo (destinationAt s.disk destinationRoot entry)
        (if sourceAt s.disk sourceRoot entry = destinationAt s.disk destinationRoot entry then []
          else data) ready left.disk := by
  have hgrows := makeAbove_grows h destinationRoot entry.destination
  rw [stageEntry_eq]
  cases hmake : makeAbove (place s.disk destinationRoot entry.destination) s with
  | error e middle =>
    rw [Run.after_error hmake] at hgrows
    exact .inl ⟨e, middle, Run.bind_of_error hmake _, hgrows⟩
  | ok u middle =>
    rw [Run.after_ok hmake] at hgrows
    rw [Run.bind_of_ok hmake]
    -- the paths were completed before the directory was made, and stay as they are
    have hcopy := place_isCopy h hgrows.rooted sourceRoot destinationRoot entry
    obtain ⟨said, hdisk, hsaid⟩ := copyAloud_eq (place s.disk sourceRoot entry.source)
      (place s.disk destinationRoot entry.destination) middle
    rw [← hdisk] at hcopy hgrows
    rw [hsaid]
    cases hc : Disk.copy (place s.disk sourceRoot entry.source)
        (place s.disk destinationRoot entry.destination) said.disk with
    | error cause new =>
      rw [hc] at hcopy
      obtain rfl : new = said.disk := hcopy
      exact .inl ⟨_, _, Run.onDisk_error hc _ _, hgrows⟩
    | ok u new =>
      rw [hc] at hcopy
      obtain ⟨data, hdata, hcopies⟩ := hcopy
      exact .inr ⟨said.disk, data, _, Run.onDisk_ok hc _ _, hgrows, hdata, hcopies⟩

end Entry

/-! ## All entries -/

/-- What has become of a disk when the entries of a manifest are staged. -/
structure Staged (sourceRoot destinationRoot : Bytes) (manifest : Manifest) (old new : Disk) :
    Prop where
  rooted : new.IsRooted
  cwd : new.cwdLocation? = old.cwdLocation?
  /-- A destination holds what the source of the last entry that names it held at the start. -/
  written : ∀ front entry back, manifest = front ++ entry :: back →
    (∀ later ∈ back,
      destinationAt old destinationRoot later ≠ destinationAt old destinationRoot entry) →
    ∃ data, old.fileAt? (sourceAt old sourceRoot entry) = some data ∧
      new.fileAt? (destinationAt old destinationRoot entry) = some data
  /-- Every other file holds what it held, and no other file is new. -/
  others : ∀ location, (∀ entry ∈ manifest, destinationAt old destinationRoot entry ≠ location) →
    new.fileAt? location = old.fileAt? location
  /-- Nothing goes. -/
  keptFiles : ∀ location, (old.fileAt? location).isSome → (new.fileAt? location).isSome
  keptDirectories : ∀ location, old.HasDirectory location → new.HasDirectory location
  /-- The new directories are on the way to destinations. -/
  made : ∀ location, new.HasDirectory location → old.HasDirectory location ∨
    ∃ entry ∈ manifest, old.IsAncestor (destinationPath destinationRoot entry) location

namespace Staged
variable {sourceRoot destinationRoot : Bytes} {done : Manifest} {entry : CopyEntry}
  {old now ready next : Disk} {data : Bytes}

theorem nil (h : old.IsRooted) : Staged sourceRoot destinationRoot [] old old := by
  refine ⟨h, rfl, fun front entry back hsplit => ?_, fun _ _ => rfl, fun _ hs => hs, fun _ hd => hd,
    fun _ hd => .inl hd⟩
  cases front <;> cases hsplit

/-- One more entry, whose source is no destination so far nor its own. -/
theorem snoc (h : Staged sourceRoot destinationRoot done old now)
    (hsource : ∀ earlier ∈ done ++ [entry],
      sourceAt old sourceRoot entry ≠ destinationAt old destinationRoot earlier)
    (hgrows : GrowsAt (old.IsAncestor (destinationPath destinationRoot entry)) now ready)
    (hdata : ready.fileAt? (sourceAt old sourceRoot entry) = some data)
    (hcopies : CopiesTo (destinationAt old destinationRoot entry) data ready next) :
    Staged sourceRoot destinationRoot (done ++ [entry]) old next := by
  have hread : old.fileAt? (sourceAt old sourceRoot entry) = some data := by
    rw [hgrows.files, h.others _ fun earlier he =>
      Ne.symm (hsource earlier (List.mem_append_left _ he))] at hdata
    exact hdata
  refine ⟨hcopies.rooted, (hcopies.cwd.trans hgrows.cwd).trans h.cwd, ?_, ?_, ?_, ?_, ?_⟩
  -- the last entry for a destination is the new one, or one that was last before it
  · intro front last back hsplit hlast
    cases back using List.reverseRecOn with
    | nil =>
      obtain ⟨-, hentry⟩ := List.append_inj' hsplit rfl
      obtain rfl := List.singleton_inj.mp hentry
      refine ⟨data, hread, ?_⟩
      rw [hcopies.files, if_pos rfl]
    | append_singleton back latest =>
      rw [← List.cons_append, ← List.append_assoc] at hsplit
      obtain ⟨hdone, hentry⟩ := List.append_inj' hsplit rfl
      obtain rfl := List.singleton_inj.mp hentry
      -- an earlier entry is the last one for its destination, which the new one leaves alone
      obtain ⟨held, hh, hnow⟩ := h.written front last back hdone fun later hl =>
        hlast later (List.mem_append_left _ hl)
      refine ⟨held, hh, ?_⟩
      rw [hcopies.files, if_neg (Ne.symm (hlast entry (by simp))), hgrows.files]
      exact hnow
  · intro location hother
    rw [hcopies.files, if_neg (Ne.symm (hother entry (by simp))), hgrows.files]
    exact h.others location fun earlier he => hother earlier (List.mem_append_left _ he)
  · intro location hs
    rw [hcopies.files]
    split
    · rfl
    · rw [hgrows.files]
      exact h.keptFiles location hs
  · intro location hd
    exact (hcopies.directories location).mpr (hgrows.kept location (h.keptDirectories location hd))
  · intro location hd
    rcases hgrows.made location ((hcopies.directories location).mp hd) with hd | hway
    · rcases h.made location hd with hd | ⟨earlier, he, hway⟩
      · exact .inl hd
      · exact .inr ⟨earlier, List.mem_append_left _ he, hway⟩
    · exact .inr ⟨entry, by simp, hway⟩

end Staged

/-- **A run over the entries**, from any of them on. -/
theorem stageEntries_staged {sourceRoot destinationRoot : Bytes} {manifest : Manifest} {old : Disk}
    (hseparate : ∀ a ∈ manifest, ∀ b ∈ manifest,
      sourceAt old sourceRoot a ≠ destinationAt old destinationRoot b) :
    ∀ {rest done : Manifest} {s left : Session}, done ++ rest = manifest →
      Staged sourceRoot destinationRoot done old s.disk →
      stageEntries sourceRoot destinationRoot rest s = .ok () left →
        Staged sourceRoot destinationRoot manifest old left.disk := by
  intro rest
  induction rest with
  | nil =>
    intro done s left hall hstaged h
    rw [List.append_nil] at hall
    obtain ⟨-, rfl⟩ := EStateM.Result.ok.inj h
    exact hall ▸ hstaged
  | cons entry rest ih =>
    intro done s left hall hstaged h
    rw [stageEntries] at h
    obtain ⟨u, middle, hentry, h⟩ := Run.bind_eq_ok h
    have hroute := route_congr hstaged.cwd
    rcases stageEntry_cases sourceRoot destinationRoot entry hstaged.rooted with
      ⟨e, failed, hfails, -⟩ | ⟨ready, data, copied, hcopied, hgrows, hdata, hcopies⟩
    · cases hentry.symm.trans hfails
    · obtain ⟨-, rfl⟩ := EStateM.Result.ok.inj (hentry.symm.trans hcopied)
      have hmine : entry ∈ manifest := by
        rw [← hall]
        exact List.mem_append_right _ List.mem_cons_self
      have hdone : ∀ earlier ∈ done ++ [entry], earlier ∈ manifest := by
        intro earlier he
        rcases List.mem_append.mp he with he | he
        · rw [← hall]
          exact List.mem_append_left _ he
        · rw [List.mem_singleton.mp he]
          exact hmine
      -- the paths of the entry come to the locations that they had at the start
      have hsourceAt : sourceAt s.disk sourceRoot entry = sourceAt old sourceRoot entry := by
        rw [sourceAt, sourceAt, locationOf, locationOf, hroute]
      have hdestinationAt : destinationAt s.disk destinationRoot entry =
          destinationAt old destinationRoot entry := by
        rw [destinationAt, destinationAt, locationOf, locationOf, hroute]
      have hway : s.disk.IsAncestor (destinationPath destinationRoot entry) =
          old.IsAncestor (destinationPath destinationRoot entry) := by
        funext location
        rw [IsAncestor, IsAncestor, hroute]
      rw [hsourceAt, hdestinationAt, if_neg (hseparate entry hmine entry hmine)] at hcopies
      rw [hsourceAt] at hdata
      rw [hway] at hgrows
      refine ih ?_ (hstaged.snoc
        (fun earlier he => hseparate entry hmine earlier (hdone earlier he)) hgrows hdata hcopies) h
      rw [← hall, List.append_assoc, List.singleton_append]

/-! ## Staging -/

theorem stage_entries {manifest : Manifest} {sourceRoot destinationRoot : Bytes} {s left : Session}
    (h : stage manifest sourceRoot destinationRoot s = .ok () left) : ∃ begun ended : Session,
      begun.disk = s.disk ∧
        stageEntries sourceRoot destinationRoot manifest begun = .ok () ended ∧
        left.disk = ended.disk := by
  rw [stage, Run.say_bind] at h
  obtain ⟨u, ended, hentries, h⟩ := Run.bind_eq_ok h
  rw [Run.say_bind] at h
  obtain ⟨-, rfl⟩ := EStateM.Result.ok.inj h
  refine ⟨_, ended, ?_, hentries, rfl⟩
  rfl

/-- Nothing is new or changed outside of a location, but for directories on the way to it. -/
def StaysInside (destinationRoot : Bytes) (old new : Disk) : Prop :=
  ∀ location, ¬ old.locationOf destinationRoot <+: location →
    new.fileAt? location = old.fileAt? location ∧
    (new.HasDirectory location → old.HasDirectory location ∨
      old.IsAncestor destinationRoot location)

/-- A path below the root of the destinations, if its spelling does not leave it. -/
def IsBelow (path : Bytes) : Prop :=
  Pathname.isAbsolute path = false ∧ Pathname.up ∉ Pathname.names path

theorem prefix_dropLast {front names : List Bytes} (h : front <+: names) (hne : front ≠ names) :
    front <+: names.dropLast := by
  rcases List.eq_nil_or_concat names with rfl | ⟨init, last, rfl⟩
  · exact absurd (List.prefix_nil.mp h) hne
  · rw [List.concat_eq_append] at h hne ⊢
    rw [List.dropLast_concat]
    exact (List.prefix_concat_iff.mp h).resolve_left hne

section Inside
variable (disk : Disk) (root : Bytes)

theorem route_destination {entry : CopyEntry} (h : IsBelow (Utf8.encode entry.destination)) :
    ∃ names, Pathname.up ∉ names ∧ Pathname.here ∉ names ∧
      disk.route (destinationPath root entry) = disk.route root ++ names := by
  refine ⟨_, fun hm => h.2 (List.mem_filter.mp hm).1, fun hm => ?_, disk.route_join root h.1⟩
  have hne := of_decide_eq_true (List.mem_filter.mp hm).2
  exact hne rfl

/-- Names behind those of the root lead down from it. -/
theorem locationOf_prefix {front names : List Bytes} (hup : Pathname.up ∉ names)
    (hhere : Pathname.here ∉ names) (hfront : disk.route root <+: front)
    (hle : front <+: disk.route root ++ names) :
    disk.locationOf root <+: Pathname.follow [] front := by
  obtain ⟨middle, rfl⟩ := hfront
  have hmiddle : middle <+: names := (List.prefix_append_right_inj _).mp hle
  rw [Pathname.follow_append, Pathname.follow_down _ (fun hm => hhere (hmiddle.subset hm))
    fun hm => hup (hmiddle.subset hm)]
  exact List.prefix_append _ _

theorem Staged.staysInside {sourceRoot destinationRoot : Bytes} {manifest : Manifest}
    {old new : Disk} (h : Staged sourceRoot destinationRoot manifest old new)
    (hbelow : ∀ entry ∈ manifest, IsBelow (Utf8.encode entry.destination)) :
    StaysInside destinationRoot old new := by
  intro location hout
  constructor
  · refine h.others location fun entry he hat => hout ?_
    obtain ⟨names, hup, hhere, hroute⟩ := route_destination old destinationRoot (hbelow entry he)
    rw [← hat, destinationAt]
    change _ <+: Pathname.follow [] (old.route (destinationPath destinationRoot entry))
    rw [hroute]
    exact locationOf_prefix old destinationRoot hup hhere (List.prefix_append _ _) List.prefix_rfl
  · intro hd
    rcases h.made location hd with hold | ⟨entry, he, front, hfront, hat⟩
    · exact .inl hold
    · right
      obtain ⟨names, hup, hhere, hroute⟩ := route_destination old destinationRoot (hbelow entry he)
      rw [hroute] at hfront
      have hfront := hfront.trans (List.dropLast_prefix _)
      -- the start of the names ends before the root, or it leads into it
      rcases List.prefix_or_prefix_of_prefix hfront (List.prefix_append _ names) with hle | hge
      · refine ⟨front, prefix_dropLast hle ?_, hat⟩
        rintro rfl
        exact hout (hat ▸ List.prefix_rfl)
      · exact absurd (hat ▸ locationOf_prefix old destinationRoot hup hhere hge hfront) hout

end Inside

/-- **Staging copies what the last entries name.** Where it succeeds on a rooted tree in which no
source is a destination, `Staged` says what has become of the disk. If no destination leaves the
root of the destinations, nothing outside of that root is touched. -/
theorem stage_copies (manifest : Manifest) (sourceRoot destinationRoot : Bytes)
    {s left : Session} (hr : s.disk.IsRooted)
    (hseparate : ∀ a ∈ manifest, ∀ b ∈ manifest,
      sourceAt s.disk sourceRoot a ≠ destinationAt s.disk destinationRoot b)
    (h : stage manifest sourceRoot destinationRoot s = .ok () left) :
    Staged sourceRoot destinationRoot manifest s.disk left.disk ∧
      ((∀ entry ∈ manifest, IsBelow (Utf8.encode entry.destination)) →
        StaysInside destinationRoot s.disk left.disk) := by
  obtain ⟨begun, ended, hbegun, hentries, hended⟩ := stage_entries h
  have hstart : Staged sourceRoot destinationRoot [] s.disk begun.disk := by
    rw [hbegun]
    exact .nil hr
  have hstaged : Staged sourceRoot destinationRoot manifest s.disk left.disk := by
    rw [hended]
    exact stageEntries_staged hseparate (List.nil_append manifest) hstart hentries
  exact ⟨hstaged, hstaged.staysInside⟩

/-- A session in one of two directories, which has two files in it. The other one is empty. -/
def besideEmpty : Session where
  disk :=
    { nodes := #[.directory 0 [(Utf8.encode "src".toList, 1), (Utf8.encode "dst".toList, 4)],
        .directory 0 [(Utf8.encode "a".toList, 2), (Utf8.encode "b".toList, 3)],
        .file [1] plainMode, .file [2] plainMode, .directory 0 []]
      cwd := 1 }

/-- Two entries for one file, which is spelled in two ways. -/
def twoForOne : Manifest :=
  [⟨"b".toList, "out/x".toList⟩, ⟨"a".toList, "out/./x".toList⟩]

theorem stage_copies_last : ∃ left,
    stage twoForOne (Utf8.encode ".".toList) (Utf8.encode "/dst".toList) besideEmpty = .ok () left ∧
      Staged (Utf8.encode ".".toList) (Utf8.encode "/dst".toList) twoForOne besideEmpty.disk
        left.disk ∧
      StaysInside (Utf8.encode "/dst".toList) besideEmpty.disk left.disk := by
  have hsucceeds : (match stage twoForOne (Utf8.encode ".".toList) (Utf8.encode "/dst".toList)
      besideEmpty with
    | .ok _ _ => true
    | .error _ _ => false) = true := by decide +kernel
  obtain ⟨left, h⟩ : ∃ left, stage twoForOne (Utf8.encode ".".toList) (Utf8.encode "/dst".toList)
      besideEmpty = .ok () left := by
    cases hrun : stage twoForOne (Utf8.encode ".".toList) (Utf8.encode "/dst".toList)
      besideEmpty with
    | ok u left => exact ⟨left, rfl⟩
    | error e left =>
      rw [hrun] at hsucceeds
      cases hsucceeds
  have htree : besideEmpty.disk.IsTree := ⟨by decide, by decide, by decide⟩
  have hr : besideEmpty.disk.IsRooted :=
    ⟨htree, by decide, by decide, by decide, by decide, by decide, by decide, by decide⟩
  obtain ⟨hstaged, hinside⟩ := stage_copies twoForOne (Utf8.encode ".".toList)
    (Utf8.encode "/dst".toList) hr (by decide) h
  refine ⟨left, h, hstaged, hinside ?_⟩
  unfold IsBelow
  decide

end Staging

end FirmwareBuild
