import FirmwareBuild.PrebuiltTools
import FirmwareBuild.Proofs.Resolution
import FirmwareBuild.Workspace.Preparation

/-! # What the steps around the tools leave as it was

Preparation and the steps that make sure of the tools print, launch commands and
write to the overlay. A part of the session that none of these changes is the
same after them. -/

namespace FirmwareBuild

open Run

variable {γ : Type} {part : Session → γ} {bench : Workbench}

namespace PrebuiltTools

def makeMissing (bench : Workbench) : Run Bool := do
  let s ← get
  if (missing bench s.disk ((s.env.get? workspaceName).getD ".".toList)).isEmpty then return false
  rebuild bench
  return true

theorem ensure_eq (bench : Workbench) :
    ensure bench = (do
      if bench.host.isPosixLike then detectPython bench
      makeMissing bench) := rfl

theorem detectPython_keeps (h : ∀ command, Keeps part (bench.runner command))
    (hsay : ∀ s output, part { s with output } = part s)
    (hname : ∀ s python, part { s with env := s.env.setText pythonName python } = part s) :
    Keeps part (detectPython bench) := by
  refine Keeps.bind (h _) fun answer => ?_
  split
  · exact Keeps.bind (fun s => hname s _) fun _ => Keeps.say hsay _
  · exact fun s => hname s _

theorem makeMissing_keeps (h : ∀ command, Keeps part (bench.runner command))
    (hsay : ∀ s output, part { s with output } = part s) : Keeps part (makeMissing bench) := by
  have hmake : Keeps part (do
      let _ ← Run.mapError (wrapFailure .toolsRebuild) (bench.runner (rebuildCommand bench.host))
      pure ()) := Keeps.bind (Keeps.mapError (h _) _) fun _ => Keeps.pure _
  have hrebuild : Keeps part (rebuild bench) := by
    unfold rebuild
    split
    · exact Keeps.bind (Keeps.say hsay _) fun _ => hmake
    · exact hmake
  refine Keeps.bind Keeps.get fun s => ?_
  split
  · exact Keeps.pure _
  · exact Keeps.bind hrebuild fun _ => Keeps.pure _

theorem ensure_keeps (h : ∀ command, Keeps part (bench.runner command))
    (hsay : ∀ s output, part { s with output } = part s)
    (hname : ∀ s python, part { s with env := s.env.setText pythonName python } = part s) :
    Keeps part (ensure bench) := by
  rw [ensure_eq]
  split
  · exact Keeps.bind (detectPython_keeps h hsay hname) fun _ => makeMissing_keeps h hsay
  · exact makeMissing_keeps h hsay

end PrebuiltTools

/-- Preparation keeps what does not depend on the overlay. -/
theorem Preparation.prepare_keeps (h : ∀ command, Keeps part (bench.runner command))
    (henv : ∀ s env, part { s with env } = part s) (defaults : ToolDefaults) (root : Bytes) :
    Keeps part (prepare bench defaults root) := by
  have hlast (toolchain : Toolchain) : Keeps part (do
      unless toolchain.isResolved do throw (.unsupportedHost bench.host)
      Run.edit (setWorkspace bench.host (Utf8.decodeLossy root) toolchain)
      return toolchain) := by
    dsimp only
    split
    · exact Keeps.bind (Keeps.edit henv _) fun _ => Keeps.pure _
    · exact Keeps.bind_throw _ _
  refine Keeps.bind (Keeps.edit henv _) fun _ =>
    Keeps.bind (Toolchain.resolve_reads h).keeps fun toolchain => ?_
  dsimp only
  split
  · exact Keeps.bind (Keeps.edit henv _) fun _ => hlast toolchain
  · exact Keeps.bind (Keeps.edit henv _) fun _ => hlast toolchain
  · refine Keeps.bind (Keeps.edit henv _) fun _ => Keeps.bind (Keeps.edit henv _) fun _ => ?_
    split
    · exact Keeps.bind_throw _ _
    · exact Keeps.bind (Keeps.edit henv _) fun _ => hlast toolchain
  · exact Keeps.bind_throw _ _

end FirmwareBuild
