import FirmwareBuild.Proofs.RunFrame
import FirmwareBuild.Toolchain.Resolution

/-! # What resolution reads and finds

Resolution runs at most one command and looks at files. It keeps whatever its
runner keeps, and the installation it finds, if any, is that of a known release. -/

namespace FirmwareBuild

open Run

variable {γ : Type} {part : Session → γ} {bench : Workbench}

def VisualStudio.years : List Text := locatedYears ++ legacyReleases.map Prod.fst

/-- The installation of a toolchain, if it has one, is that of a known release. -/
def Toolchain.InstallationKnown (toolchain : Toolchain) : Prop :=
  ∀ installation, toolchain.installation = some installation →
    ∃ year ∈ VisualStudio.years, installation.variableName = VisualStudio.prefixVariable year

theorem VisualStudio.legacyIn_known (env : Overlay) : (legacyIn env).InstallationKnown := by
  intro installation hi
  unfold legacyIn at hi
  generalize hf : legacyReleases.findSome? _ = found at hi
  cases found with
  | none => cases hi
  | some toolchain =>
    obtain ⟨⟨year, name⟩, hm, hl⟩ := List.exists_of_findSome?_eq_some hf
    obtain ⟨commonTools, -, rfl⟩ := Option.map_eq_some_iff.mp hl
    obtain rfl := Option.some.inj hi
    exact ⟨year, List.mem_append_right _ (List.mem_map_of_mem hm), rfl⟩

theorem VisualStudio.located_known {place year : Text} (h : yearOf? place = some year)
    (versionText : Text) : (located place year versionText).InstallationKnown := by
  intro installation hi
  obtain rfl := Option.some.inj hi
  exact ⟨year, List.mem_append_left _ (List.mem_of_find?_eq_some h), rfl⟩

theorem Toolchain.gnu_known {output : Text} {toolchain : Toolchain}
    (h : gnu output = .ok toolchain) : toolchain.InstallationKnown := by
  intro installation hi
  unfold gnu at h
  split at h
  · cases h
  · obtain rfl := Except.ok.inj h
    cases hi

theorem VisualStudio.find?_reads {p : Toolchain → Prop}
    (h : ∀ command, Keeps part (bench.runner command))
    (hp : ∀ place year, yearOf? place = some year →
      ∀ versionText, p (located place year versionText)) :
    Reads part (fun found => ∀ toolchain, found = some toolchain → p toolchain) (find? bench) := by
  have nothing : Reads part (fun found => ∀ toolchain, found = some toolchain → p toolchain)
      (pure none : Run (Option Toolchain)) := Reads.pure fun _ h => nomatch h
  refine Reads.bind Keeps.get.reads fun s _ => ?_
  split
  · split
    · refine Reads.bind (h _).reads fun listing _ => Reads.bind Keeps.get.reads fun s _ => ?_
      dsimp only
      split
      · split
        · split
          · rename_i year hy
            split
            · refine Reads.pure fun toolchain ht => ?_
              obtain rfl := Option.some.inj ht
              exact hp _ _ hy _
            · exact Reads.throw _
          · exact nothing
        · exact nothing
      · exact nothing
    · exact nothing
  · exact nothing

/-- Resolution keeps what its runner keeps, and finds known installations only. -/
theorem Toolchain.resolve_reads (h : ∀ command, Keeps part (bench.runner command)) :
    Reads part InstallationKnown (resolve bench) := by
  unfold resolve
  split
  · exact Reads.bind (h _).reads fun _ _ => Reads.pure fun _ h => nomatch h
  · refine Reads.bind (h _).reads fun output _ => ?_
    split
    · rename_i toolchain hg
      exact Reads.pure (gnu_known hg)
    · exact Reads.throw _
  · refine Reads.bind (VisualStudio.find?_reads h fun _ _ => VisualStudio.located_known)
      fun found hfound => ?_
    split
    · exact Reads.pure (hfound _ rfl)
    · exact Reads.bind Keeps.get.reads fun s _ => Reads.pure (VisualStudio.legacyIn_known s.env)
  · exact Reads.pure fun _ h => nomatch h

end FirmwareBuild
