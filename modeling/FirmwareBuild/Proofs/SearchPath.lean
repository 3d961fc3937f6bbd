import FirmwareBuild.Proofs.OverlayRefinement

/-! # The entries of a search path

Whether a directory is listed is decided on the lossy reading of the search path.
The separators are ASCII, so that lengthening the path by an entry lengthens the
list of its entries by what the entry itself is cut into, also where the path ends
in a broken sequence (`entries_appendEntry`). Directories that are appended in
order are therefore those that the path did not list before. -/

namespace FirmwareBuild

namespace Text

variable {α : Type} [DecidableEq α]

/-- Of two texts that start the same, the one is no piece of the other, if they differ behind a
start that holds all separators of the other. -/
theorem append_not_mem_split {sep : α} (start : List α) {a b : List α} (ha : sep ∉ a)
    (hab : b ≠ a) : start ++ b ∉ split sep (start ++ a) := by
  intro h
  have hb := not_mem_of_mem_split h
  have hs : sep ∉ start ++ a := by
    simp only [List.mem_append, not_or] at hb ⊢
    exact ⟨hb.1, ha⟩
  rw [split_of_not_mem hs, List.mem_singleton] at h
  exact hab (List.append_cancel_left h)

end Text

theorem Host.listSeparator_ascii (host : Host) : host.listSeparator.toNat < 0x80 := by
  cases host <;> decide

namespace Overlay

def entries (host : Host) (path : Bytes) : List Text :=
  Text.split host.listSeparator (Utf8.decodeLossy path)

@[simp] theorem entries_nil (host : Host) : entries host [] = [[]] := rfl

/-- The entries of a search path with one more entry. -/
theorem entries_appendEntry (host : Host) (path : Bytes) (directory : Text) :
    entries host (appendEntry host.listSeparator path directory) =
      (if path = [] then [] else entries host path) ++ Text.split host.listSeparator directory := by
  unfold entries appendEntry
  cases path with
  | nil => simp
  | cons b path =>
    rw [List.isEmpty_cons, if_neg (by simp), if_neg (by simp), List.append_assoc,
      ← Utf8.encode_append, List.singleton_append,
      Utf8.decodeLossy_append_ascii _ host.listSeparator_ascii, Text.split_append_cons]

/-- The search path with directories appended one after the other, listed or not. -/
def lengthened (host : Host) (path : Bytes) (directories : List Text) : Bytes :=
  directories.foldl (appendEntry host.listSeparator) path

/-- The search path of an overlay. One that is not there is empty. -/
def searchPath (env : Overlay) : Bytes := (env.getBytes? pathName).getD []

/-- What the search path of an overlay is after a directory was appended: the new path, if the
directory was not listed, or what there was. -/
theorem getBytes?_appendPath (env : Overlay) (host : Host) (directory : Text) :
    (env.appendPath host directory).getBytes? pathName =
      (if directory ∈ entries host env.searchPath then none
        else some (appendEntry host.listSeparator env.searchPath directory)).or
          (env.getBytes? pathName) :=
  Write.getBytes?_apply_name (.appendPath host directory) env

theorem searchPath_appendPath (env : Overlay) (host : Host) (directory : Text) :
    (env.appendPath host directory).searchPath =
      if directory ∈ entries host env.searchPath then env.searchPath
      else appendEntry host.listSeparator env.searchPath directory := by
  rw [searchPath, getBytes?_appendPath]
  split <;> rfl

/-- Appending a directory leaves a search path behind, unless the directory is the empty text. -/
theorem isSome_appendPath (env : Overlay) (host : Host) {directory : Text} (h : directory ≠ []) :
    ((env.appendPath host directory).getBytes? pathName).isSome = true := by
  rw [getBytes?_appendPath]
  cases hp : env.getBytes? pathName with
  | some path => simp
  | none =>
    have hl : directory ∉ entries host env.searchPath := by simpa [searchPath, hp] using h
    rw [if_neg hl]
    rfl

/-- Directories that name none of each other's pieces are appended where the path before all of
them did not list them. -/
theorem searchPath_appendPaths (host : Host) {directories : List Text}
    (hne : ∀ directory ∈ directories, directory ≠ [])
    (hpieces : directories.Pairwise fun a b => b ∉ Text.split host.listSeparator a)
    (env : Overlay) :
    (applyAll (directories.map (Write.appendPath host)) env).searchPath =
      lengthened host env.searchPath
        (directories.filter fun directory => directory ∉ entries host env.searchPath) := by
  induction directories generalizing env with
  | nil => rfl
  | cons directory rest ih =>
    obtain ⟨hd, hrest⟩ := List.pairwise_cons.mp hpieces
    have hstep := ih (fun d hd => hne d (List.mem_cons_of_mem _ hd)) hrest
      (env.appendPath host directory)
    have hpath := searchPath_appendPath env host directory
    change (applyAll (rest.map (Write.appendPath host)) (env.appendPath host directory)).searchPath
      = _
    rw [hstep]
    by_cases hl : directory ∈ entries host env.searchPath
    · rw [hpath, if_pos hl, List.filter_cons_of_neg (by simpa using hl)]
    · -- what is appended now lists none of the directories that are still to come
      have hsame :
          (rest.filter fun d => d ∉ entries host (env.appendPath host directory).searchPath) =
            rest.filter fun d => d ∉ entries host env.searchPath := by
        apply List.filter_congr
        intro d hmem
        rw [hpath, if_neg hl, entries_appendEntry]
        split
        · rename_i hempty
          rw [hempty, entries_nil]
          simp [hd d hmem, hne d (List.mem_cons_of_mem _ hmem)]
        · simp [hd d hmem]
      rw [hsame, hpath, if_neg hl, List.filter_cons_of_pos (by simpa using hl)]
      rfl

end Overlay

end FirmwareBuild
