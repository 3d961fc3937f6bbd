import FirmwareBuild.Proofs.StoppedStaging

/-! # What staging makes of the files it reads

An entry writes to one location and nowhere else, so the file that it reads keeps its
data where the two locations differ. Where they are one, the copy empties the file
before it reads it. A source that no other entry writes to is therefore what it was
unless its own entry copies it onto itself and is reached, and then it is empty
(`stage_spares_sources`). -/

namespace FirmwareBuild

namespace Staging

open Disk Run

/-- A rooted tree becomes another one, and no file changes but at some locations. -/
structure WritesAt (given : Location → Prop) (old new : Disk) : Prop where
  rooted : new.IsRooted
  cwd : new.cwdLocation? = old.cwdLocation?
  others : ∀ location, ¬ given location → new.fileAt? location = old.fileAt? location

namespace WritesAt
variable {given more : Location → Prop} {a b c : Disk}

theorem refl (h : a.IsRooted) : WritesAt given a a := ⟨h, rfl, fun _ _ => rfl⟩

theorem trans (hab : WritesAt given a b) (hbc : WritesAt given b c) : WritesAt given a c :=
  ⟨hbc.rooted, hbc.cwd.trans hab.cwd, fun location hl =>
    (hbc.others location hl).trans (hab.others location hl)⟩

theorem mono (h : WritesAt given a b) (hg : ∀ location, given location → more location) :
    WritesAt more a b :=
  ⟨h.rooted, h.cwd, fun location hl => h.others location fun hm => hl (hg location hm)⟩

end WritesAt

theorem sourceAt_congr {old new : Disk} (h : new.cwdLocation? = old.cwdLocation?) :
    sourceAt new = sourceAt old := by
  funext root entry
  rw [sourceAt, sourceAt, locationOf, locationOf, route_congr h]

theorem destinationAt_congr {old new : Disk} (h : new.cwdLocation? = old.cwdLocation?) :
    destinationAt new = destinationAt old := by
  funext root entry
  rw [destinationAt, destinationAt, locationOf, locationOf, route_congr h]

/-- What a file that an entry reads comes to hold, by whether the entry is done. One that is copied
onto itself is emptied before it is read. -/
def sourceAfter (disk : Disk) (sourceRoot destinationRoot : Bytes) (entry : CopyEntry)
    (done : Bool) : Option Bytes :=
  if sourceAt disk sourceRoot entry = destinationAt disk destinationRoot entry ∧ done = true then
    some []
  else disk.fileAt? (sourceAt disk sourceRoot entry)

/-! ## One entry -/

section Entry
variable (sourceRoot destinationRoot : Bytes) {s : Session} (h : s.disk.IsRooted)
  (entry : CopyEntry)
include h

theorem stageEntry_writesAt : WritesAt (· = destinationAt s.disk destinationRoot entry) s.disk
    ((stageEntry sourceRoot destinationRoot entry).after s).disk := by
  rcases stageEntry_cases sourceRoot destinationRoot entry h with
    ⟨e, left, hfails, hgrows⟩ | ⟨ready, data, left, hcopied, hgrows, -, hcopies⟩
  · rw [after_error hfails]
    exact ⟨hgrows.rooted, hgrows.cwd, fun location _ => hgrows.files location⟩
  · rw [after_ok hcopied]
    refine ⟨hcopies.rooted, hcopies.cwd.trans hgrows.cwd, fun location hl => ?_⟩
    rw [hcopies.files, if_neg hl, hgrows.files]

/-- **What an entry makes of the file it reads.** -/
theorem stageEntry_source :
    ((stageEntry sourceRoot destinationRoot entry).after s).disk.fileAt?
        (sourceAt s.disk sourceRoot entry) =
      sourceAfter s.disk sourceRoot destinationRoot entry
        ((stageEntry sourceRoot destinationRoot entry).succeeds s) := by
  unfold sourceAfter
  rcases stageEntry_cases sourceRoot destinationRoot entry h with
    ⟨e, left, hfails, hgrows⟩ | ⟨ready, data, left, hcopied, hgrows, -, hcopies⟩
  · rw [after_error hfails, Run.succeeds, hfails, if_neg fun hc => Bool.false_ne_true hc.2,
      hgrows.files]
  · rw [after_ok hcopied, Run.succeeds, hcopied, hcopies.files]
    by_cases hself : sourceAt s.disk sourceRoot entry = destinationAt s.disk destinationRoot entry
    · rw [if_pos hself, if_pos hself, if_pos ⟨hself, rfl⟩]
    · rw [if_neg hself, if_neg fun hc => hself hc.1, hgrows.files]

end Entry

/-! ## All entries -/

/-- A run over the entries writes to their destinations only, whether it succeeds or not. -/
theorem stageEntries_writesAt (sourceRoot destinationRoot : Bytes) {s : Session}
    (h : s.disk.IsRooted) (manifest : Manifest) :
    WritesAt (fun location => ∃ entry ∈ manifest,
        destinationAt s.disk destinationRoot entry = location) s.disk
      ((stageEntries sourceRoot destinationRoot manifest).after s).disk := by
  induction manifest generalizing s with
  | nil => exact .refl h
  | cons entry rest ih =>
    have hentry : WritesAt (fun location => ∃ other ∈ entry :: rest,
        destinationAt s.disk destinationRoot other = location) s.disk
          ((stageEntry sourceRoot destinationRoot entry).after s).disk :=
      (stageEntry_writesAt sourceRoot destinationRoot h entry).mono
        fun location hl => ⟨entry, List.mem_cons_self, hl.symm⟩
    cases hstep : stageEntry sourceRoot destinationRoot entry s with
    | error e left =>
      rw [after_error hstep] at hentry
      rw [stageEntries, after_error (bind_of_error hstep _)]
      exact hentry
    | ok u middle =>
      rw [after_ok hstep] at hentry
      have hrest := ih hentry.rooted
      rw [destinationAt_congr hentry.cwd] at hrest
      rw [stageEntries, after_bind_of_ok hstep]
      refine hentry.trans (hrest.mono fun location hl => ?_)
      obtain ⟨other, ho, hl⟩ := hl
      exact ⟨other, List.mem_cons_of_mem _ ho, hl⟩

/-- What a run makes of the file that one of its entries reads, if no other entry writes to it. -/
theorem stageEntries_source (sourceRoot destinationRoot : Bytes) {s : Session}
    (h : s.disk.IsRooted) {front back : Manifest} {entry : CopyEntry}
    (hothers : ∀ other ∈ front ++ back, destinationAt s.disk destinationRoot other ≠
      sourceAt s.disk sourceRoot entry) :
    ((stageEntries sourceRoot destinationRoot (front ++ entry :: back)).after s).disk.fileAt?
        (sourceAt s.disk sourceRoot entry) =
      sourceAfter s.disk sourceRoot destinationRoot entry
        ((stageEntries sourceRoot destinationRoot (front ++ [entry])).succeeds s) := by
  have hfront := stageEntries_writesAt sourceRoot destinationRoot h front
  have hsame := hfront.others (sourceAt s.disk sourceRoot entry) (by
    rintro ⟨other, ho, hl⟩
    exact hothers other (List.mem_append_left _ ho) hl)
  rw [stageEntries_append, stageEntries_append, Run.succeeds, after]
  cases hrun : stageEntries sourceRoot destinationRoot front s with
  | error e left =>
    rw [after_error hrun] at hsame
    rw [bind_of_error hrun, bind_of_error hrun, hsame]
    exact (if_neg fun hc => Bool.false_ne_true hc.2).symm
  | ok u middle =>
    rw [after_ok hrun] at hfront hsame
    have hentry := stageEntry_source sourceRoot destinationRoot hfront.rooted entry
    have hwritten := stageEntry_writesAt sourceRoot destinationRoot hfront.rooted entry
    rw [sourceAfter, sourceAt_congr hfront.cwd, destinationAt_congr hfront.cwd, hsame,
      ← sourceAfter, Run.succeeds] at hentry
    rw [bind_of_ok hrun, bind_of_ok hrun, stageEntries, stageEntries]
    cases hstep : stageEntry sourceRoot destinationRoot entry middle with
    | error e left =>
      rw [after_error hstep, hstep] at hentry
      rw [bind_of_error hstep, bind_of_error hstep]
      exact hentry
    | ok u copied =>
      rw [after_ok hstep] at hwritten
      rw [after_ok hstep, hstep] at hentry
      -- the entries behind it leave the file as it then is
      have hback := stageEntries_writesAt sourceRoot destinationRoot hwritten.rooted back
      rw [destinationAt_congr (hwritten.cwd.trans hfront.cwd)] at hback
      have hkept := hback.others (sourceAt s.disk sourceRoot entry) (by
        rintro ⟨other, ho, hl⟩
        exact hothers other (List.mem_append_right _ ho) hl)
      rw [bind_of_ok hstep, bind_of_ok hstep, ← after, hkept]
      exact hentry

/-- **Staging spares the files it reads, but for those that it copies onto themselves.** Each entry
leaves the file that it reads as `sourceAfter` says: unchanged, or empty if the entry succeeds and
the file is its destination too. However a run ends, this is also what it leaves of the source of
an entry that no other entry writes to, where the entry is done if the run gets past it. -/
theorem stage_spares_sources (sourceRoot destinationRoot : Bytes) (s : Session)
    (h : s.disk.IsRooted) :
    (∀ entry, ((stageEntry sourceRoot destinationRoot entry).after s).disk.fileAt?
        (sourceAt s.disk sourceRoot entry) =
      sourceAfter s.disk sourceRoot destinationRoot entry
        ((stageEntry sourceRoot destinationRoot entry).succeeds s)) ∧
    ∀ front entry back,
      (∀ other ∈ front ++ back, destinationAt s.disk destinationRoot other ≠
        sourceAt s.disk sourceRoot entry) →
      ((stage (front ++ entry :: back) sourceRoot destinationRoot).after s).disk.fileAt?
          (sourceAt s.disk sourceRoot entry) =
        sourceAfter s.disk sourceRoot destinationRoot entry
          ((stage (front ++ [entry]) sourceRoot destinationRoot).succeeds s) := by
  refine ⟨stageEntry_source sourceRoot destinationRoot h, fun front entry back hothers => ?_⟩
  rw [disk_after, effect_stage, ← disk_after, succeeds_congr (effect_stage _ _ _ s)]
  exact stageEntries_source sourceRoot destinationRoot h hothers

/-- An entry that copies a file into the empty directory. -/
def intoEmpty : CopyEntry := ⟨"b".toList, "/dst/y".toList⟩

/-- An entry that copies a file onto itself, under another spelling. -/
def ontoItself : CopyEntry := ⟨"a".toList, "../src/a".toList⟩

/-- Of two sources the one that is copied elsewhere keeps its data, and the other loses them. -/
theorem stage_spares_other : besideEmpty.disk.IsRooted ∧
    (∀ other ∈ [] ++ [ontoItself], destinationAt besideEmpty.disk Pathname.here other ≠
      sourceAt besideEmpty.disk Pathname.here intoEmpty) ∧
    ((stage [intoEmpty, ontoItself] Pathname.here Pathname.here).after besideEmpty).disk.fileAt?
        (sourceAt besideEmpty.disk Pathname.here intoEmpty) = some [2] ∧
    (∀ other ∈ [intoEmpty] ++ [], destinationAt besideEmpty.disk Pathname.here other ≠
      sourceAt besideEmpty.disk Pathname.here ontoItself) ∧
    ((stage [intoEmpty, ontoItself] Pathname.here Pathname.here).after besideEmpty).disk.fileAt?
        (sourceAt besideEmpty.disk Pathname.here ontoItself) = some [] := by
  have hr : besideEmpty.disk.IsRooted := by decide +kernel
  have hinto : ∀ other ∈ [] ++ [ontoItself], destinationAt besideEmpty.disk Pathname.here other ≠
      sourceAt besideEmpty.disk Pathname.here intoEmpty := by decide +kernel
  have honto : ∀ other ∈ [intoEmpty] ++ [], destinationAt besideEmpty.disk Pathname.here other ≠
      sourceAt besideEmpty.disk Pathname.here ontoItself := by decide +kernel
  have hkept := (stage_spares_sources Pathname.here Pathname.here besideEmpty hr).2 [] intoEmpty
    [ontoItself] hinto
  have hemptied := (stage_spares_sources Pathname.here Pathname.here besideEmpty hr).2 [intoEmpty]
    ontoItself [] honto
  refine ⟨hr, hinto, hkept.trans ?_, honto, hemptied.trans ?_⟩
  · decide +kernel
  · decide +kernel

/-- A run with one entry succeeds, and the one file that it reads has lost its data. -/
theorem stage_empties_own_source :
    (stage [ontoItself] Pathname.here Pathname.here).succeeds besideEmpty = true ∧
    besideEmpty.disk.fileAt? (sourceAt besideEmpty.disk Pathname.here ontoItself) = some [1] ∧
    ((stage [ontoItself] Pathname.here Pathname.here).after besideEmpty).disk.fileAt?
      (sourceAt besideEmpty.disk Pathname.here ontoItself) = some [] := by
  decide +kernel

end Staging

end FirmwareBuild
