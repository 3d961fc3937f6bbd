import FirmwareBuild.PrebuiltTools
import FirmwareBuild.Proofs.TextCuts
import Mathlib.Data.List.Basic
import Mathlib.Logic.Relation

/-! # Joined paths

A joined path is its base without the separators at the end, and below it the parts,
each without the separators at its ends and with one before it. More parts can be
joined to it as if they had been there from the start, unless it ends in a separator
itself, which is then lost. That happens exactly if the last of its parts holds nothing
but separators (`join_join_iff`). Separators that are added to the ends of the base and
the parts, or taken from there, change nothing (`SameRoute.join_eq`). So the path of a
tool, which is joined in two steps, is the one of all parts below the workspace, and the
same whatever separators the workspace ends in (`join_composes`). -/

namespace FirmwareBuild

namespace Host

variable {host : Host}

/-! ## More parts -/

def below (host : Host) (parts : List Text) : Text :=
  parts.flatMap fun part => host.separator :: Text.dropEnds (· == host.separator) part

/-- There are no parts, or the last one holds more than separators. -/
def EndsInName (host : Host) (parts : List Text) : Prop :=
  ∀ part ∈ parts.getLast?, ∃ c ∈ part, c ≠ host.separator

instance (host : Host) (parts : List Text) : Decidable (host.EndsInName parts) :=
  decidable_of_iff ((parts.getLast?.all fun part => part.any (· != host.separator)) = true)
    (by simp [EndsInName, Option.all_eq_true])

theorem join_nil (host : Host) (base : Text) :
    host.join base [] = Text.dropEnd (· == host.separator) base := List.append_nil _

theorem join_append (host : Host) (base : Text) (parts more : List Text) :
    host.join base (parts ++ more) = host.join base parts ++ host.below more := by
  rw [join, List.flatMap_append, ← List.append_assoc, below, join]

theorem endsInName_concat {front : List Text} {part : Text} : host.EndsInName (front ++ [part]) ↔
    Text.dropEnds (· == host.separator) part ≠ [] := by
  simp [EndsInName, Text.dropEnds_eq_nil]

/-- A joined path ends in a separator exactly if its parts do not end in a name. -/
theorem endsInName_iff (host : Host) (base : Text) (parts : List Text) : host.EndsInName parts ↔
    ∀ c ∈ (host.join base parts).getLast?, (c == host.separator) = false := by
  rcases List.eq_nil_or_concat' parts with rfl | ⟨front, part, rfl⟩
  · rw [join_nil]
    exact iff_of_true (fun part hp => nomatch hp) (Text.getLast?_dropEnd _ base)
  · have hlast := (Text.dropEnds_isCut (· == host.separator) part).last
    rw [endsInName_concat, join_append, below, List.flatMap_singleton]
    -- the path ends as its last part does, or in the separator before it if nothing is left of it
    cases hcore : Text.dropEnds (· == host.separator) part with
    | nil => simp
    | cons c rest =>
      rw [hcore] at hlast
      rw [List.getLast?_append_of_ne_nil _ (List.cons_ne_nil _ _), List.getLast?_cons_cons]
      exact iff_of_true (List.cons_ne_nil c rest) hlast

/-- **Joining goes on from a joined path** exactly if its parts end in a name. -/
theorem join_join_iff (host : Host) (base : Text) (parts more : List Text) :
    host.join (host.join base parts) more = host.join base (parts ++ more) ↔
      host.EndsInName parts := by
  rw [endsInName_iff host base parts, ← Text.dropEnd_eq_self, join_append]
  exact List.append_left_inj (host.below more)

/-! ## More separators -/

/-- One separator more, at the end of the base or at either end of a part. -/
inductive AddsSeparator (host : Host) : Text × List Text → Text × List Text → Prop where
  | base (base : Text) (parts : List Text) :
    AddsSeparator host (base, parts) (base ++ [host.separator], parts)
  | before (base : Text) (front : List Text) (part : Text) (back : List Text) :
    AddsSeparator host (base, front ++ part :: back)
      (base, front ++ (host.separator :: part) :: back)
  | behind (base : Text) (front : List Text) (part : Text) (back : List Text) :
    AddsSeparator host (base, front ++ part :: back)
      (base, front ++ (part ++ [host.separator]) :: back)

/-- The same base and parts but for separators at their ends, any number of which may have been
added and taken away. -/
abbrev SameRoute (host : Host) : Text × List Text → Text × List Text → Prop :=
  Relation.EqvGen (AddsSeparator host)

theorem join_separators (host : Host) (base : Text) (count : Nat) (parts : List Text) :
    host.join (base ++ List.replicate count host.separator) parts = host.join base parts := by
  rw [join, Text.dropEnd_append_of_all (by simp), join]

theorem join_congr {part part' : Text} (h : Text.dropEnds (· == host.separator) part' =
    Text.dropEnds (· == host.separator) part) (base : Text) (front back : List Text) :
    host.join base (front ++ part' :: back) = host.join base (front ++ part :: back) := by
  rw [join_append, join_append, below, below, List.flatMap_cons, List.flatMap_cons, h]

theorem AddsSeparator.join_eq {old new : Text × List Text} (h : AddsSeparator host old new) :
    host.join new.1 new.2 = host.join old.1 old.2 := by
  cases h with
  | base base parts => exact join_separators host base 1 parts
  | before base front part back => exact join_congr (Text.dropEnds_cons (by simp) part) base _ _
  | behind base front part back => exact join_congr (Text.dropEnds_append (by simp) part) base _ _

theorem SameRoute.join_eq {old new : Text × List Text} (h : host.SameRoute old new) :
    host.join new.1 new.2 = host.join old.1 old.2 := by
  induction h with
  | rel old new h => exact h.join_eq
  | refl => rfl
  | symm old new _ ih => exact ih.symm
  | trans old middle new _ _ ih ih' => exact ih'.trans ih

end Host

/-! ## The path of a tool -/

namespace PrebuiltTools

theorem binParts_endsInName (host : Host) : host.EndsInName (binParts host) := by
  cases host <;> decide

theorem toolPath_eq (host : Host) (workspace tool : Text) : toolPath host workspace tool =
    host.join workspace (binParts host ++ [tool ++ host.exeSuffix]) :=
  (Host.join_join_iff host workspace (binParts host) _).mpr (binParts_endsInName host)

/-- However many separators are put behind a workspace, the check looks for the same paths. -/
theorem missing_separators (bench : Workbench) (disk : Disk) (workspace : Text) (count : Nat) :
    missing bench disk (workspace ++ List.replicate count bench.host.separator) =
      required.filter fun tool => !bench.probe.pathExists disk
        (bench.host.join workspace (binParts bench.host ++ [tool ++ bench.host.exeSuffix])) := by
  refine List.filter_congr fun tool _ => ?_
  rw [toolPath_eq, Host.join_separators]

end PrebuiltTools

namespace Host

open PrebuiltTools

/-- **Joined paths compose.** Parts are joined in two steps as they are at once, exactly if those of
the first step end in a name. Separators added to the ends of the base and the parts, or taken from
there, change nothing. So the check for the tools goes by the paths that are joined from the
workspace at once, whatever separators that one ends in. -/
theorem join_composes (host : Host) :
    (∀ base parts more, host.join (host.join base parts) more = host.join base (parts ++ more) ↔
      host.EndsInName parts) ∧
    (∀ base parts base' parts', host.SameRoute (base, parts) (base', parts') →
      host.join base' parts' = host.join base parts) ∧
    ∀ runner probe disk workspace count,
      missing ⟨host, runner, probe⟩ disk (workspace ++ List.replicate count host.separator) =
        required.filter fun tool => !probe.pathExists disk
          (host.join workspace (binParts host ++ [tool ++ host.exeSuffix])) :=
  ⟨host.join_join_iff, fun _ _ _ _ h => h.join_eq,
    fun runner probe => missing_separators ⟨host, runner, probe⟩⟩

/-- There is nothing but one of the tools. -/
def loneTool : Probe :=
  .ofLists [("C:\\ws\\BaseTools\\Bin\\Win32\\GenFw.exe".toList, [])] []

/-- Separators at all kinds of ends, and a part that holds nothing else. -/
theorem join_composes_windows :
    windows.SameRoute ("C:\\ws".toList, [baseTools])
      ("C:\\ws\\".toList, ["\\BaseTools".toList]) ∧
    windows.join "C:\\ws\\".toList ["\\BaseTools".toList] =
      windows.join "C:\\ws".toList [baseTools] ∧
    windows.join (windows.join "C:\\ws".toList ["Bin\\".toList]) ["Win32".toList] =
      windows.join "C:\\ws".toList ["Bin\\".toList, "Win32".toList] ∧
    windows.join (windows.join "C:\\ws".toList ["\\".toList]) ["Win32".toList] ≠
      windows.join "C:\\ws".toList ["\\".toList, "Win32".toList] ∧
    missing ⟨windows, .scripted fun _ => .notFound, loneTool⟩ .empty "C:\\ws\\\\".toList =
      ["GenFfs", "GenFv", "GenSec", "LzmaCompress"].map String.toList := by
  obtain ⟨hcompose, hsame, hcheck⟩ := join_composes .windows
  have hroute : windows.SameRoute ("C:\\ws".toList, [baseTools])
      ("C:\\ws\\".toList, ["\\BaseTools".toList]) :=
    .trans _ _ _ (.rel _ _ (.base _ _)) (.rel _ _ (.before _ [] baseTools []))
  refine ⟨hroute, hsame _ _ _ _ hroute, (hcompose _ ["Bin\\".toList] _).mpr (by decide),
    fun h => absurd ((hcompose _ ["\\".toList] _).mp h) (by decide), ?_⟩
  exact (hcheck _ loneTool .empty "C:\\ws".toList 2).trans (by decide +kernel)

end Host

end FirmwareBuild
