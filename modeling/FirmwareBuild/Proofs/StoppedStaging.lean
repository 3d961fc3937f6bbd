import FirmwareBuild.Proofs.StagedFiles

/-! # Staging that stops

Staging one manifest after another does to the disk what staging both at once does
(`stage_append`). An entry that fails touches no file, so that staging stops with
the files that the entries before it made, and with the lines that were printed up
to there (`stage_stops`). -/

namespace FirmwareBuild

namespace Run

variable {α β : Type}

/-- How a step ends and the disk that it leaves, whatever it prints. -/
def effect (step : Run α) (s : Session) : Except BuildError α × Disk :=
  match step s with
  | .ok a left => (.ok a, left.disk)
  | .error e left => (.error e, left.disk)

/-- The effect of a step hangs on the disk only. -/
def DiskDriven (step : Run α) : Prop := ∀ s t, s.disk = t.disk → step.effect s = step.effect t

theorem effect_ok {step : Run α} {s left : Session} {a : α} (h : step s = .ok a left) :
    step.effect s = (.ok a, left.disk) := by
  simp [effect, h]

theorem effect_error {step : Run α} {s left : Session} {e : BuildError}
    (h : step s = .error e left) : step.effect s = (.error e, left.disk) := by
  simp [effect, h]

theorem effect_bind_ok {x : Run α} {s left : Session} {a : α} (h : x s = .ok a left)
    (f : α → Run β) : (x >>= f).effect s = (f a).effect left := by
  rw [effect, bind_of_ok h]
  rfl

theorem effect_bind_error {x : Run α} {s left : Session} {e : BuildError} (h : x s = .error e left)
    (f : α → Run β) : (x >>= f).effect s = (.error e, left.disk) :=
  effect_error (bind_of_error h f)

theorem effect_congr {x y : Run α} {s : Session} (h : x s = y s) : x.effect s = y.effect s := by
  rw [effect, effect, h]

theorem disk_after (step : Run α) (s : Session) : (step.after s).disk = (step.effect s).2 := by
  unfold after effect
  cases step s <;> rfl

theorem succeeds_congr {x y : Run α} {s : Session} (h : x.effect s = y.effect s) :
    x.succeeds s = y.succeeds s := by
  unfold effect at h
  unfold succeeds
  cases hx : x s <;> cases hy : y s <;> rw [hx, hy] at h <;> cases h

theorem ok_of_effect {step : Run α} {s : Session} {a : α} {disk : Disk}
    (h : step.effect s = (.ok a, disk)) : ∃ left, step s = .ok a left ∧ left.disk = disk := by
  unfold effect at h
  cases hstep : step s with
  | ok b left =>
    rw [hstep] at h
    obtain ⟨hb, hdisk⟩ := Prod.mk.inj h
    obtain rfl := Except.ok.inj hb
    exact ⟨left, rfl, hdisk⟩
  | error e left =>
    rw [hstep] at h
    cases (Prod.mk.inj h).1

namespace DiskDriven

theorem pure (a : α) : DiskDriven (Pure.pure a : Run α) := fun _ _ h => congrArg (Prod.mk _) h

theorem say (line : Text) : DiskDriven (Run.say line) := fun _ _ h => congrArg (Prod.mk _) h

theorem onDisk (action : FileAction) (path : Bytes) (change : Disk.Change α) :
    DiskDriven (Run.onDisk action path change) := by
  intro s t h
  unfold effect Run.onDisk
  rw [h]
  cases change t.disk <;> rfl

theorem bind {x : Run α} {f : α → Run β} (hx : DiskDriven x) (hf : ∀ a, DiskDriven (f a)) :
    DiskDriven (x >>= f) := by
  intro s t h
  have hsame := hx s t h
  cases hs : x s with
  | ok a left =>
    rw [effect_ok hs] at hsame
    obtain ⟨left', ht, hdisk⟩ := ok_of_effect hsame.symm
    rw [effect_bind_ok hs, effect_bind_ok ht]
    exact hf a left left' hdisk.symm
  | error e left =>
    rw [effect_error hs] at hsame
    cases ht : x t with
    | ok a left' =>
      rw [effect_ok ht] at hsame
      cases (Prod.mk.inj hsame).1
    | error e' left' =>
      rw [effect_error ht] at hsame
      rw [effect_bind_error hs, effect_bind_error ht]
      obtain ⟨he, hdisk⟩ := Prod.mk.inj hsame
      rw [Except.error.inj he, hdisk]

end DiskDriven

def lineOf (line : Text) : Bytes := Utf8.encode line ++ Utf8.encode ['\n']

theorem say_run (line : Text) (s : Session) :
    Run.say line s = .ok () { s with output := s.output ++ lineOf line } := rfl

end Run

namespace Staging

open Disk Run

variable {sourceRoot destinationRoot : Bytes}

/-! ## Manifests in a row -/

theorem makeAbove_diskDriven (destination : Bytes) : DiskDriven (makeAbove destination) := by
  unfold makeAbove
  split
  · exact .onDisk _ _ _
  · exact .pure _

theorem stageEntry_diskDriven (entry : CopyEntry) :
    DiskDriven (stageEntry sourceRoot destinationRoot entry) := by
  intro s t h
  have hsteps (disk : Disk) : DiskDriven
      (makeAbove (place disk destinationRoot entry.destination) >>= fun _ =>
        copyAloud (place disk sourceRoot entry.source)
          (place disk destinationRoot entry.destination)) :=
    (makeAbove_diskDriven _).bind fun _ =>
      (DiskDriven.say _).bind fun _ => (DiskDriven.say _).bind fun _ => .onDisk _ _ _
  rw [effect_congr (stageEntry_eq sourceRoot destinationRoot entry s),
    effect_congr (stageEntry_eq sourceRoot destinationRoot entry t), h]
  exact hsteps t.disk s t h

theorem stageEntries_diskDriven (manifest : Manifest) :
    DiskDriven (stageEntries sourceRoot destinationRoot manifest) := by
  induction manifest with
  | nil => exact .pure ()
  | cons entry rest ih => exact (stageEntry_diskDriven entry).bind fun _ => ih

theorem stageEntries_append (front back : Manifest) :
    stageEntries sourceRoot destinationRoot (front ++ back) =
      stageEntries sourceRoot destinationRoot front >>= fun _ =>
        stageEntries sourceRoot destinationRoot back := by
  induction front with
  | nil => simp [stageEntries]
  | cons entry rest ih => simp only [List.cons_append, stageEntries, ih, bind_assoc]

def opening (destinationRoot : Bytes) : Bytes :=
  lineOf ("Copy build outputs into ".toList ++ Utf8.decodeLossy destinationRoot ++ " ...".toList)

def closing : Bytes := lineOf "Done".toList ++ lineOf []

def opened (destinationRoot : Bytes) (s : Session) : Session :=
  { s with output := s.output ++ opening destinationRoot }

theorem stage_of_ok {manifest : Manifest} {s left : Session}
    (h : stageEntries sourceRoot destinationRoot manifest (opened destinationRoot s) =
      .ok () left) :
    stage manifest sourceRoot destinationRoot s =
      .ok () { left with output := left.output ++ closing } := by
  have hclosing : (do Run.say "Done".toList; Run.say [] : Run Unit) left =
      .ok () { left with output := left.output ++ closing } := by
    rw [bind_of_ok (say_run _ left), say_run, closing, List.append_assoc]
  rw [stage, Run.say_bind, ← hclosing]
  exact bind_of_ok h _

theorem stage_of_error {manifest : Manifest} {s left : Session} {e : BuildError}
    (h : stageEntries sourceRoot destinationRoot manifest (opened destinationRoot s) =
      .error e left) : stage manifest sourceRoot destinationRoot s = .error e left := by
  rw [stage, Run.say_bind]
  exact bind_of_error h _

/-- The lines around the entries have no effect. -/
theorem effect_stage (sourceRoot destinationRoot : Bytes) (manifest : Manifest) (s : Session) :
    (stage manifest sourceRoot destinationRoot).effect s =
      (stageEntries sourceRoot destinationRoot manifest).effect s := by
  rw [stageEntries_diskDriven manifest s (opened destinationRoot s) rfl]
  cases h : stageEntries sourceRoot destinationRoot manifest (opened destinationRoot s) with
  | ok u left => rw [effect_ok h, effect_ok (stage_of_ok h)]
  | error e left => rw [effect_error h, effect_error (stage_of_error h)]

/-- **Staging two manifests at once has the effect of staging one after the other.** -/
theorem stage_append (front back : Manifest) (s : Session) :
    (stage (front ++ back) sourceRoot destinationRoot).effect s =
      (do stage front sourceRoot destinationRoot
          stage back sourceRoot destinationRoot : Run Unit).effect s := by
  have hfront := effect_stage sourceRoot destinationRoot front s
  rw [effect_stage, stageEntries_append]
  cases hstage : stage front sourceRoot destinationRoot s with
  | ok u left =>
    rw [effect_ok hstage] at hfront
    obtain ⟨entered, hentries, hdisk⟩ := ok_of_effect hfront.symm
    rw [effect_bind_ok hstage, effect_bind_ok hentries, effect_stage]
    exact stageEntries_diskDriven back entered left hdisk
  | error e left =>
    rw [effect_error hstage] at hfront
    rw [effect_bind_error hstage]
    cases hentries : stageEntries sourceRoot destinationRoot front s with
    | ok u entered =>
      rw [effect_ok hentries] at hfront
      cases (Prod.mk.inj hfront).1
    | error e' entered =>
      rw [effect_bind_error hentries, ← effect_error hentries, ← hfront]

/-! ## Where it stops -/

def linesFor (disk : Disk) (sourceRoot destinationRoot : Bytes) (entry : CopyEntry) : Bytes :=
  lineOf ("Copy:  ".toList ++ Utf8.decodeLossy (place disk sourceRoot entry.source)) ++
    lineOf ("  To:  ".toList ++ Utf8.decodeLossy (place disk destinationRoot entry.destination))

/-- Whether the directory of a destination can be made, or none is needed. -/
def directoryReady (disk : Disk) (destinationRoot : Bytes) (entry : CopyEntry) : Bool :=
  match Pathname.parent? (place disk destinationRoot entry.destination) with
  | none => true
  | some parent => match makeDirectories parent disk with
    | .ok _ _ => true
    | .error _ _ => false

theorem place_congr {old new : Disk} (h : new.cwdLocation? = old.cwdLocation?) :
    place new = place old := by
  funext root path
  simp only [place, absolute, cwdPath?, h]

theorem linesFor_congr {old new : Disk} (h : new.cwdLocation? = old.cwdLocation?) :
    linesFor new sourceRoot destinationRoot = linesFor old sourceRoot destinationRoot := by
  funext entry
  rw [linesFor, linesFor, place_congr h]

section Entry
variable {entry : CopyEntry} {s left : Session} {e : BuildError}

/-- The directory is made, or the step fails. -/
theorem makeAbove_cases (destinationRoot : Bytes) (s : Session) (entry : CopyEntry) :
    (directoryReady s.disk destinationRoot entry = true ∧ ∃ disk,
      makeAbove (place s.disk destinationRoot entry.destination) s = .ok () { s with disk }) ∨
    (directoryReady s.disk destinationRoot entry = false ∧ ∃ e disk,
      makeAbove (place s.disk destinationRoot entry.destination) s = .error e { s with disk }) := by
  unfold makeAbove directoryReady
  cases Pathname.parent? (place s.disk destinationRoot entry.destination) with
  | none => exact .inl ⟨rfl, s.disk, rfl⟩
  | some parent =>
    dsimp only
    cases hmake : makeDirectories parent s.disk with
    | ok u disk => exact .inl ⟨rfl, disk, onDisk_ok hmake _ _⟩
    | error cause disk => exact .inr ⟨rfl, _, disk, onDisk_error hmake _ _⟩

theorem copyAloud_output (source destination : Bytes) (s : Session) :
    ((copyAloud source destination).after s).output = s.output ++
      (lineOf ("Copy:  ".toList ++ Utf8.decodeLossy source) ++
        lineOf ("  To:  ".toList ++ Utf8.decodeLossy destination)) := by
  rw [← List.append_assoc]
  unfold after
  rw [copyAloud, Run.say_bind, Run.say_bind]
  unfold Run.onDisk
  split
  · rename_i h
    split at h
    · obtain ⟨-, rfl⟩ := EStateM.Result.ok.inj h
      rfl
    · cases h
  · rename_i h
    split at h
    · cases h
    · obtain ⟨-, rfl⟩ := EStateM.Result.error.inj h
      rfl

/-- The lines for an entry are printed once its directory is there, whether or not it is copied. -/
theorem stageEntry_output (sourceRoot destinationRoot : Bytes) (s : Session) (entry : CopyEntry) :
    ((stageEntry sourceRoot destinationRoot entry).after s).output = s.output ++
      if directoryReady s.disk destinationRoot entry then
        linesFor s.disk sourceRoot destinationRoot entry
      else [] := by
  unfold after
  rw [stageEntry_eq]
  rcases makeAbove_cases destinationRoot s entry with
    ⟨hready, disk, hmake⟩ | ⟨hready, e, disk, hmake⟩
  · rw [if_pos hready, bind_of_ok hmake]
    exact copyAloud_output _ _ { s with disk }
  · rw [if_neg (by simp [hready]), bind_of_error hmake, List.append_nil]

theorem directoryReady_of_ok (h : stageEntry sourceRoot destinationRoot entry s = .ok () left) :
    directoryReady s.disk destinationRoot entry = true := by
  rw [stageEntry_eq] at h
  rcases makeAbove_cases destinationRoot s entry with
    ⟨hready, -⟩ | ⟨-, e, disk, hmake⟩
  · exact hready
  · rw [bind_of_error hmake] at h
    cases h

/-- **One entry that succeeds** leaves a rooted tree and prints its lines. -/
theorem stageEntry_ok (hr : s.disk.IsRooted)
    (h : stageEntry sourceRoot destinationRoot entry s = .ok () left) :
    left.disk.IsRooted ∧ left.disk.cwdLocation? = s.disk.cwdLocation? ∧
      left.output = s.output ++ linesFor s.disk sourceRoot destinationRoot entry := by
  have houtput := stageEntry_output sourceRoot destinationRoot s entry
  rw [after_ok h, if_pos (directoryReady_of_ok h)] at houtput
  rcases stageEntry_cases sourceRoot destinationRoot entry hr with
    ⟨e, failed, hfails, -⟩ | ⟨ready, data, copied, hcopied, hgrows, -, hcopies⟩
  · cases h.symm.trans hfails
  · obtain ⟨-, rfl⟩ := EStateM.Result.ok.inj (h.symm.trans hcopied)
    exact ⟨hcopies.rooted, hcopies.cwd.trans hgrows.cwd, houtput⟩

/-- **One entry that fails** touches no file. -/
theorem stageEntry_error (hr : s.disk.IsRooted)
    (h : stageEntry sourceRoot destinationRoot entry s = .error e left) :
    GrowsAt (s.disk.IsAncestor (destinationPath destinationRoot entry)) s.disk left.disk := by
  rcases stageEntry_cases sourceRoot destinationRoot entry hr with
    ⟨e', failed, hfails, hgrows⟩ | ⟨ready, data, copied, hcopied, -⟩
  · obtain ⟨-, rfl⟩ := EStateM.Result.error.inj (h.symm.trans hfails)
    exact hgrows
  · cases h.symm.trans hcopied

end Entry

theorem stageEntries_ok {manifest : Manifest} {s left : Session} (hr : s.disk.IsRooted)
    (h : stageEntries sourceRoot destinationRoot manifest s = .ok () left) :
    left.disk.IsRooted ∧ left.disk.cwdLocation? = s.disk.cwdLocation? ∧
      left.output = s.output ++ manifest.flatMap (linesFor s.disk sourceRoot destinationRoot) := by
  induction manifest generalizing s with
  | nil =>
    obtain ⟨-, rfl⟩ := EStateM.Result.ok.inj h
    exact ⟨hr, rfl, (List.append_nil _).symm⟩
  | cons entry rest ih =>
    obtain ⟨u, middle, hentry, hrest⟩ := bind_eq_ok h
    obtain ⟨hrooted, hcwd, houtput⟩ := stageEntry_ok hr hentry
    obtain ⟨hrootedRest, hcwdRest, houtputRest⟩ := ih hrooted hrest
    refine ⟨hrootedRest, hcwdRest.trans hcwd, ?_⟩
    rw [houtputRest, houtput, linesFor_congr hcwd, List.flatMap_cons, List.append_assoc]

/-- A run over the entries fails at the first entry that fails. -/
theorem stageEntries_error {manifest : Manifest} {s left : Session} {e : BuildError}
    (h : stageEntries sourceRoot destinationRoot manifest s = .error e left) :
    ∃ done entry rest staged, manifest = done ++ entry :: rest ∧
      stageEntries sourceRoot destinationRoot done s = .ok () staged ∧
      stageEntry sourceRoot destinationRoot entry staged = .error e left := by
  induction manifest generalizing s with
  | nil => cases h
  | cons first rest ih =>
    rw [stageEntries] at h
    cases hfirst : stageEntry sourceRoot destinationRoot first s with
    | error e' failed =>
      rw [bind_of_error hfirst] at h
      exact ⟨[], first, rest, s, rfl, rfl, h ▸ hfirst⟩
    | ok u middle =>
      rw [bind_of_ok hfirst] at h
      obtain ⟨done, entry, after, staged, hsplit, hdone, hentry⟩ := ih h
      refine ⟨first :: done, entry, after, staged, congrArg (first :: ·) hsplit, ?_, hentry⟩
      rw [stageEntries, bind_of_ok hfirst]
      exact hdone

/-- How staging ends: with all that it prints, or at one entry. The entries before it are staged,
it touches no file, and the entries behind it do nothing. -/
def IsEnding (sourceRoot destinationRoot : Bytes) (manifest : Manifest) (s : Session) :
    EStateM.Result BuildError Session Unit → Prop
  | .ok _ left => left.output = s.output ++ (opening destinationRoot ++
      manifest.flatMap (linesFor s.disk sourceRoot destinationRoot) ++ closing)
  | .error e left => ∃ done entry rest staged, manifest = done ++ entry :: rest ∧
      stage done sourceRoot destinationRoot s = .ok () staged ∧
      stage (done ++ [entry]) sourceRoot destinationRoot s = .error e left ∧
      GrowsAt (s.disk.IsAncestor (destinationPath destinationRoot entry)) staged.disk left.disk ∧
      left.output = s.output ++ (opening destinationRoot ++
        done.flatMap (linesFor s.disk sourceRoot destinationRoot) ++
        if directoryReady staged.disk destinationRoot entry then
          linesFor s.disk sourceRoot destinationRoot entry
        else [])

theorem stage_isEnding (manifest : Manifest) {s : Session} (hr : s.disk.IsRooted) :
    IsEnding sourceRoot destinationRoot manifest s
      (stage manifest sourceRoot destinationRoot s) := by
  have hopened : (opened destinationRoot s).disk.IsRooted := hr
  cases h : stageEntries sourceRoot destinationRoot manifest (opened destinationRoot s) with
  | ok u left =>
    obtain ⟨-, -, houtput⟩ := stageEntries_ok hopened h
    rw [stage_of_ok h]
    change left.output ++ closing = _
    rw [houtput]
    simp only [opened, List.append_assoc]
  | error e left =>
    obtain ⟨done, entry, rest, staged, hsplit, hdone, hentry⟩ := stageEntries_error h
    obtain ⟨hrooted, hcwd, houtput⟩ := stageEntries_ok hopened hdone
    rw [stage_of_error h]
    have hfails : stageEntries sourceRoot destinationRoot (done ++ [entry])
        (opened destinationRoot s) = .error e left := by
      rw [stageEntries_append, bind_of_ok hdone, stageEntries, bind_of_error hentry]
    have hgrows := stageEntry_error hrooted hentry
    have hway : staged.disk.IsAncestor (destinationPath destinationRoot entry) =
        s.disk.IsAncestor (destinationPath destinationRoot entry) := by
      funext location
      rw [IsAncestor, IsAncestor, route_congr hcwd]
      rfl
    have hprinted := stageEntry_output sourceRoot destinationRoot staged entry
    rw [after_error hentry, houtput, linesFor_congr hcwd] at hprinted
    refine ⟨done, entry, rest, _, hsplit, stage_of_ok hdone, stage_of_error hfails, hway ▸ hgrows,
      ?_⟩
    rw [hprinted]
    simp only [opened, List.append_assoc]

/-- **Staging takes the entries in order and stops at the first that fails.** Manifests in a row
have the effect of one, and a run on a rooted tree ends as `IsEnding` says. -/
theorem stage_stops (sourceRoot destinationRoot : Bytes) :
    (∀ front back s, (stage (front ++ back) sourceRoot destinationRoot).effect s =
      (do stage front sourceRoot destinationRoot
          stage back sourceRoot destinationRoot : Run Unit).effect s) ∧
    ∀ manifest (s : Session), s.disk.IsRooted → IsEnding sourceRoot destinationRoot manifest s
      (stage manifest sourceRoot destinationRoot s) :=
  ⟨stage_append, fun manifest _ hr => stage_isEnding manifest hr⟩

/-- Three entries, of which the second has no source. -/
def oneMissing : Manifest :=
  [⟨"b".toList, "out/x".toList⟩, ⟨"c".toList, "new/y".toList⟩, ⟨"a".toList, "out/z".toList⟩]

theorem stage_stops_missing : besideEmpty.disk.IsRooted ∧
    (stage oneMissing (Utf8.encode ".".toList) (Utf8.encode "/dst".toList)).succeeds besideEmpty =
      false ∧
    IsEnding (Utf8.encode ".".toList) (Utf8.encode "/dst".toList) oneMissing besideEmpty
      (stage oneMissing (Utf8.encode ".".toList) (Utf8.encode "/dst".toList) besideEmpty) := by
  have hr : besideEmpty.disk.IsRooted := by decide +kernel
  exact ⟨hr, by decide +kernel, (stage_stops _ _).2 oneMissing besideEmpty hr⟩

end Staging

end FirmwareBuild
