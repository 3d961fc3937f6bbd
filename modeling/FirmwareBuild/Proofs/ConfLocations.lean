import FirmwareBuild.Proofs.SeededFiles
import FirmwareBuild.Proofs.TreeCopies

/-! # Locations of the configuration

The configuration directory, its files and their templates have their locations below
that of the workspace, and no two files or templates have the same. The way to a
template goes through the workspace and two directories, which stand if the template
does (`template_reachable`). -/

namespace FirmwareBuild

theorem Pathname.length_join {a b : Bytes} (ha : isAbsolute a = false) (hb : isAbsolute b = false)
    (hle : a.length ≤ b.length) (base : Bytes) : (join base a).length ≤ (join base b).length := by
  rw [join_relative ha, join_relative hb]
  split <;> simp <;> omega

namespace Disk

theorem Fits.of_join {base path : Bytes} (hpath : Pathname.isAbsolute path = false)
    (h : Fits (Pathname.join base path)) : Fits base := by
  have hfront : base <+: Pathname.join base path := by
    rw [Pathname.join_relative hpath]
    split <;> exact List.prefix_append _ _
  refine ⟨fun hm => h.noZero (hfront.subset hm), Nat.le_trans hfront.length_le h.short, ?_⟩
  intro name hm
  refine h.names name ?_
  rw [Pathname.names_join base hpath]
  exact List.mem_append_left _ hm

/-- A shorter path in the same directory can be followed if its own names can. -/
theorem Fits.of_longer {base a b : Bytes} (ha : Pathname.isAbsolute a = false)
    (hb : Pathname.isAbsolute b = false) (hle : a.length ≤ b.length) (hzero : (0 : UInt8) ∉ a)
    (hnames : ∀ name ∈ Pathname.names a, name.length ≤ maxName)
    (h : Fits (Pathname.join base b)) : Fits (Pathname.join base a) := by
  have hbase := h.of_join hb
  refine ⟨?_, Nat.le_trans (Pathname.length_join ha hb hle base) h.short, fun name hm => ?_⟩
  · have hnone := hbase.noZero
    rw [Pathname.join_relative ha]
    split <;> simp [hnone, hzero, Pathname.slash]
  · rw [Pathname.names_join base ha] at hm
    rcases List.mem_append.mp hm with hm | hm
    · exact hbase.names name hm
    · exact hnames name hm

end Disk

namespace ConfDirectory

open Disk

/-! ## Where the files are -/

def confName : Bytes := Utf8.encode name

def toolsName : Bytes := Utf8.encode "BaseTools".toList

def fileName (file : Text) : Bytes := Utf8.encode (file ++ ".txt".toList)

def templateName (file : Text) : Bytes := Utf8.encode (file ++ ".template".toList)

def fileAt (disk : Disk) (workspace : Bytes) (file : Text) : Location :=
  disk.locationOf (filePath workspace file)

def templateAt (disk : Disk) (workspace : Bytes) (file : Text) : Location :=
  disk.locationOf (templatePath workspace file)

theorem fileName_facts : ∀ file ∈ files, Pathname.isAbsolute (fileName file) = false ∧
    Pathname.names (fileName file) = [fileName file] ∧ fileName file ≠ Pathname.here ∧
    fileName file ≠ Pathname.up := by decide

theorem templateName_facts : ∀ file ∈ files,
    Pathname.isAbsolute (Utf8.encode ("BaseTools/Conf/".toList ++ file ++ ".template".toList)) =
      false ∧
    Pathname.names (Utf8.encode ("BaseTools/Conf/".toList ++ file ++ ".template".toList)) =
      [toolsName, confName, templateName file] ∧
    templateName file ≠ Pathname.here ∧ templateName file ≠ Pathname.up := by decide

theorem fileName_injective : ∀ a ∈ files, ∀ b ∈ files, fileName a = fileName b → a = b := by decide

theorem templatePath_endsInSlash (workspace : Bytes) {file : Text} (hf : file ∈ files) :
    Pathname.endsInSlash (templatePath workspace file) = false := by
  rw [templatePath, Pathname.endsInSlash_join]
  · revert file
    decide
  · revert file
    decide

section Names
variable (workspace : Bytes)

theorem names_directory :
    Pathname.names (directory workspace) = Pathname.names workspace ++ [confName] := by
  have hname : Pathname.names confName = [confName] := by decide
  rw [directory, Pathname.names_join workspace (by decide)]
  exact congrArg _ hname

theorem isAbsolute_directory :
    Pathname.isAbsolute (directory workspace) = Pathname.isAbsolute workspace :=
  Pathname.isAbsolute_join workspace (by decide)

variable {file : Text} (hf : file ∈ files)
include hf

theorem names_filePath : Pathname.names (filePath workspace file) =
    Pathname.names (directory workspace) ++ [fileName file] := by
  obtain ⟨hrelative, hnames, -⟩ := fileName_facts file hf
  change Pathname.names (Pathname.join (directory workspace) (fileName file)) = _
  rw [Pathname.names_join _ hrelative, hnames]

theorem isAbsolute_filePath :
    Pathname.isAbsolute (filePath workspace file) = Pathname.isAbsolute workspace := by
  change Pathname.isAbsolute (Pathname.join (directory workspace) (fileName file)) = _
  rw [Pathname.isAbsolute_join _ (fileName_facts file hf).1, isAbsolute_directory]

theorem names_templatePath : Pathname.names (templatePath workspace file) =
    Pathname.names workspace ++ [toolsName, confName, templateName file] := by
  obtain ⟨hrelative, hnames, -⟩ := templateName_facts file hf
  rw [templatePath, Pathname.names_join _ hrelative, hnames]

theorem isAbsolute_templatePath :
    Pathname.isAbsolute (templatePath workspace file) = Pathname.isAbsolute workspace := by
  rw [templatePath, Pathname.isAbsolute_join _ (templateName_facts file hf).1]

end Names

theorem stepTo_confName (location : Location) :
    Pathname.stepTo location confName = location ++ [confName] := by
  have hhere : confName ≠ Pathname.here := by decide
  have hup : confName ≠ Pathname.up := by decide
  exact Pathname.stepTo_of_ne hhere hup

theorem stepTo_toolsName (location : Location) :
    Pathname.stepTo location toolsName = location ++ [toolsName] := by
  have hhere : toolsName ≠ Pathname.here := by decide
  have hup : toolsName ≠ Pathname.up := by decide
  exact Pathname.stepTo_of_ne hhere hup

theorem startAt_congr {disk : Disk} {a b : Bytes}
    (h : Pathname.isAbsolute a = Pathname.isAbsolute b) : disk.startAt a = disk.startAt b := by
  rw [startAt, startAt, h]

/-- A template has a longer path than the file that is copied from it. -/
theorem fits_filePath {workspace : Bytes} {file : Text} (hf : file ∈ files)
    (h : Fits (templatePath workspace file)) : Fits (filePath workspace file) := by
  have hjoin : filePath workspace file =
      Pathname.join workspace (Pathname.join confName (fileName file)) :=
    Pathname.join_join (by decide) (by decide) (by decide) (fileName_facts file hf).1 workspace
  rw [hjoin]
  have hfacts : ∀ file ∈ files,
      Pathname.isAbsolute (Pathname.join confName (fileName file)) = false ∧
      (Pathname.join confName (fileName file)).length ≤
        (Utf8.encode ("BaseTools/Conf/".toList ++ file ++ ".template".toList)).length ∧
      (0 : UInt8) ∉ Pathname.join confName (fileName file) ∧
      ∀ name ∈ Pathname.names (Pathname.join confName (fileName file)), name.length ≤ maxName := by
    decide
  obtain ⟨hrelative, hle, hzero, hnames⟩ := hfacts file hf
  exact h.of_longer hrelative (templateName_facts file hf).1 hle hzero hnames

section Locations
variable {disk : Disk} (h : disk.IsFileTree) (workspace : Bytes)

theorem wayOf_directory : disk.wayOf (directory workspace) = disk.wayOf workspace ++
    [Pathname.follow (disk.startAt workspace) (Pathname.names workspace) ++ [confName]] := by
  rw [wayOf, names_directory, Pathname.way_concat, stepTo_confName,
    startAt_congr (isAbsolute_directory workspace), wayOf]

variable {file other : Text} (hf : file ∈ files)

theorem dropLast_wayOf_filePath (hf : file ∈ files) :
    (disk.wayOf (filePath workspace file)).dropLast = disk.wayOf (directory workspace) := by
  rw [wayOf, names_filePath workspace hf, Pathname.way_concat, List.dropLast_concat, wayOf]
  rw [startAt_congr ((isAbsolute_filePath workspace hf).trans
    (isAbsolute_directory workspace).symm)]

include h hf

theorem fileAt_eq :
    fileAt disk workspace file = disk.locationOf workspace ++ [confName, fileName file] := by
  obtain ⟨-, -, hhere, hup⟩ := fileName_facts file hf
  rw [fileAt, h.locationOf_eq, h.locationOf_eq, names_filePath workspace hf, names_directory,
    startAt_congr (isAbsolute_filePath workspace hf), Pathname.follow_append,
    Pathname.follow_append]
  change Pathname.stepTo (Pathname.stepTo _ confName) (fileName file) = _
  rw [stepTo_confName, Pathname.stepTo_of_ne hhere hup, List.append_assoc]
  rfl

theorem templateAt_eq : templateAt disk workspace file =
    disk.locationOf workspace ++ [toolsName, confName, templateName file] := by
  obtain ⟨-, -, hhere, hup⟩ := templateName_facts file hf
  rw [templateAt, h.locationOf_eq, h.locationOf_eq, names_templatePath workspace hf,
    startAt_congr (isAbsolute_templatePath workspace hf), Pathname.follow_append]
  change Pathname.stepTo (Pathname.stepTo (Pathname.stepTo _ toolsName) confName)
    (templateName file) = _
  rw [stepTo_toolsName, stepTo_confName, Pathname.stepTo_of_ne hhere hup, List.append_assoc,
    List.append_assoc]
  rfl

theorem fileAt_injective (ho : other ∈ files)
    (he : fileAt disk workspace file = fileAt disk workspace other) : file = other := by
  rw [fileAt_eq h workspace hf, fileAt_eq h workspace ho] at he
  have htail := List.append_cancel_left he
  exact fileName_injective file hf other ho (by simpa using htail)

theorem templateAt_ne_fileAt (ho : other ∈ files) :
    templateAt disk workspace file ≠ fileAt disk workspace other := by
  intro he
  rw [templateAt_eq h workspace hf, fileAt_eq h workspace ho] at he
  have htail := List.append_cancel_left he
  simp at htail

/-- The way of a template leads through the workspace and two directories that are above it. -/
theorem template_reachable (hfits : Fits (templatePath workspace file))
    (hway : ∀ l ∈ disk.wayOf workspace, disk.entryAt? l = some .directory)
    (hsome : (disk.entryAt? (templateAt disk workspace file)).isSome) :
    disk.IsReachable (templatePath workspace file) := by
  have hconf : disk.entryAt? (disk.locationOf workspace ++ [toolsName] ++ [confName]) =
      some .directory := by
    rw [templateAt_eq h workspace hf] at hsome
    have habove : disk.locationOf workspace ++ [toolsName, confName, templateName file] =
        disk.locationOf workspace ++ [toolsName] ++ [confName] ++ [templateName file] := by simp
    rw [habove] at hsome
    exact h.directory_above hsome
  have htools : disk.entryAt? (disk.locationOf workspace ++ [toolsName]) = some .directory :=
    h.directory_above (Option.isSome_of_eq_some hconf)
  refine ⟨?_, hfits, fun l hl => ?_⟩
  · intro hempty
    have hnames := names_templatePath workspace hf
    rw [hempty] at hnames
    simp at hnames
  · -- up to its last name the path has the way of the workspace and two directories more
    have hsplit : Pathname.names (templatePath workspace file) =
        Pathname.names workspace ++ [toolsName] ++ [confName] ++ [templateName file] := by
      rw [names_templatePath workspace hf]
      simp
    rw [wayOf, hsplit, Pathname.way_concat, List.dropLast_concat, Pathname.way_concat,
      Pathname.way_concat, startAt_congr (isAbsolute_templatePath workspace hf),
      Pathname.follow_append, ← h.locationOf_eq, stepTo_toolsName] at hl
    change l ∈ _ ++ [Pathname.stepTo (Pathname.stepTo _ toolsName) confName] at hl
    rw [stepTo_toolsName, stepTo_confName] at hl
    simp only [List.mem_append, List.mem_singleton] at hl
    rcases hl with (hl | rfl) | rfl
    · exact hway l hl
    · exact htools
    · exact hconf

end Locations

end ConfDirectory

end FirmwareBuild
