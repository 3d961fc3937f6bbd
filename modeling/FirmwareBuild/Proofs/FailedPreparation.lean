import FirmwareBuild.Proofs.PreparedOverlay

/-! # How preparation fails

Preparation fails as resolution does, for want of a toolchain for the host, or for want
of an installation on Windows, and in no other way: a toolchain that resolution answers
with is fit for its host, so that the last check of preparation never fails
(`prepare_fails`). Only on Windows is anything written before a failure, and that is the
search path and the search path for Python modules. -/

namespace FirmwareBuild

open Overlay

/-! ## Errors of a step -/

namespace Run

variable {α β : Type} {p : BuildError → Prop}

/-- What a step fails with, if it fails, has a property. -/
def Throws (p : BuildError → Prop) (step : Run α) : Prop :=
  ∀ s e left, step s = .error e left → p e

theorem Throws.pure (a : α) : Throws p (Pure.pure a : Run α) := by
  intro s e left h
  cases h

theorem Throws.throw {e : BuildError} (h : p e) : Throws p (throw e : Run α) := by
  intro s e' left he
  cases he
  exact h

theorem Throws.bind_throw {e : BuildError} (h : p e) (f : α → Run β) :
    Throws p (MonadExcept.throw e >>= f : Run β) := by
  intro s e' left he
  cases he
  exact h

theorem Throws.get : Throws p (get : Run Session) := by
  intro s e left h
  cases h

theorem Throws.modify (f : Session → Session) : Throws p (modify f : Run Unit) := by
  intro s e left h
  cases h

theorem Throws.set (s : Session) : Throws p (set s : Run PUnit) := by
  intro t e left h
  cases h

theorem Throws.onDisk {action : FileAction} {path : Bytes} (h : ∀ cause, p (.io action path cause))
    (change : Disk.Change α) : Throws p (Run.onDisk action path change) := by
  intro s e left he
  cases hchange : change s.disk with
  | ok a disk =>
    rw [onDisk_ok hchange] at he
    cases he
  | error cause disk =>
    rw [onDisk_error hchange] at he
    cases he
    exact h cause

theorem Throws.bind {x : Run α} {f : α → Run β} (hx : Throws p x) (hf : ∀ a, Throws p (f a)) :
    Throws p (x >>= f) := by
  intro s e left h
  cases hr : x s with
  | ok a middle =>
    rw [bind_of_ok hr] at h
    exact hf a middle e left h
  | error e' middle =>
    rw [bind_of_error hr] at h
    cases h
    exact hx s e left hr

end Run

open Run

/-- The errors that are about the host and not about a command or a file. -/
def BuildError.IsOfHost : BuildError → Prop
  | .unsupportedHost _ | .visualStudioNotFound => True
  | _ => False

/-- What goes wrong with a command is never put down to the host. -/
def Runner.BlamesNoHost (runner : Runner) : Prop :=
  ∀ command, Throws (fun e => ¬ e.IsOfHost) (runner command)

theorem Runner.scripted_blamesNoHost (script : Text → Reply) : (scripted script).BlamesNoHost := by
  intro command
  refine Throws.bind (Throws.modify _) fun _ => ?_
  split
  · exact Throws.pure _
  · exact Throws.throw id
  · exact Throws.throw id

theorem Runner.diagnose_throws {p : BuildError → Prop} (command : Command) :
    Throws p (diagnose command) := by
  unfold diagnose
  split
  · exact Throws.pure _
  · exact Throws.bind (Throws.modify _) fun _ => Throws.modify _

theorem Runner.onMachine_blamesNoHost (machine : Machine) : (onMachine machine).BlamesNoHost := by
  intro command
  have failing {e : BuildError} (he : ¬ e.IsOfHost) :
      Throws (fun e => ¬ e.IsOfHost) (do diagnose command; throw e : Run Text) :=
    Throws.bind (diagnose_throws command) fun _ => Throws.throw he
  unfold onMachine
  dsimp only
  split
  all_goals
    try refine Throws.bind (Throws.modify _) fun _ => ?_
    split
    · exact Throws.bind_throw id _
    · refine Throws.bind (Throws.modify _) fun _ => Throws.bind Throws.get fun s => ?_
      refine Throws.bind (Throws.set _) fun _ => ?_
      split
      · exact failing id
      · split
        all_goals
          try refine Throws.bind (Throws.modify _) fun _ => ?_
          split
          · exact Throws.pure _
          · exact failing id

/-! ## What resolution answers with -/

namespace VisualStudio

/-- An installation comes with an identifier. -/
theorem legacyIn_resolved {env : Overlay} (h : (legacyIn env).installation.isSome = true) :
    (legacyIn env).isResolved = true := by
  unfold legacyIn at h ⊢
  generalize hf : legacyReleases.findSome? _ = found at h ⊢
  cases found with
  | none => cases h
  | some toolchain =>
    obtain ⟨⟨year, name⟩, -, hl⟩ := List.exists_of_findSome?_eq_some hf
    obtain ⟨commonTools, -, rfl⟩ := Option.map_eq_some_iff.mp hl
    simp [Toolchain.isResolved, legacy]

theorem located_resolved (place year versionText : Text) :
    (located place year versionText).isResolved = true := by
  simp [Toolchain.isResolved, located]

theorem find?_throws {bench : Workbench} (hr : bench.runner.BlamesNoHost) :
    Throws (fun e => ¬ e.IsOfHost) (find? bench) := by
  unfold find?
  refine Throws.bind Throws.get fun s => ?_
  split
  · split
    · refine Throws.bind (hr _) fun listing => Throws.bind Throws.get fun s => ?_
      dsimp only
      split
      · split
        · split
          · split
            · exact Throws.pure _
            · exact Throws.throw id
          · exact Throws.pure _
        · exact Throws.pure _
      · exact Throws.pure _
    · exact Throws.pure _
  · exact Throws.pure _

end VisualStudio

namespace Toolchain

/-- A host has a use for a toolchain, which on Windows has to have an installation. -/
def FitFor (toolchain : Toolchain) (host : Host) : Prop :=
  host ≠ .unsupported ∧ (host = .windows → toolchain.installation.isSome = true)

theorem gnu_resolved {output : Text} {toolchain : Toolchain} (h : gnu output = .ok toolchain) :
    toolchain.isResolved = true := by
  unfold gnu at h
  split at h
  · cases h
  · obtain rfl := Except.ok.inj h
    dsimp only [isResolved]
    split <;> decide

/-- A toolchain that resolution answers with has an identifier, if the host has a use for it. -/
theorem resolve_resolved (bench : Workbench) :
    Gives (fun toolchain => toolchain.FitFor bench.host → toolchain.isResolved = true)
      (resolve bench) := by
  have anything {α : Type} (step : Run α) : Keeps (fun _ => ()) step := fun _ => rfl
  unfold resolve
  split
  · exact Gives.bind (anything _).reads.gives fun output _ => Gives.pure fun _ => rfl
  · refine Gives.bind (anything _).reads.gives fun output _ => ?_
    split
    · rename_i toolchain hg
      exact Gives.pure fun _ => gnu_resolved hg
    · exact Gives.throw _
  · rename_i hw
    have hfind := VisualStudio.find?_reads (p := fun toolchain => toolchain.isResolved = true)
      (fun command => anything (bench.runner command))
      fun place year _ => VisualStudio.located_resolved place year
    refine Gives.bind hfind.gives fun found hfound => ?_
    split
    · exact Gives.pure fun _ => hfound _ rfl
    · exact Gives.bind (anything _).reads.gives fun s _ =>
        Gives.pure fun hfit => VisualStudio.legacyIn_resolved (hfit.2 hw)
  · rename_i hu
    exact Gives.pure fun hfit => absurd hu hfit.1

theorem resolve_throws {bench : Workbench} (hr : bench.runner.BlamesNoHost) :
    Throws (fun e => ¬ e.IsOfHost) (resolve bench) := by
  unfold resolve
  split
  · exact Throws.bind (hr _) fun _ => Throws.pure _
  · refine Throws.bind (hr _) fun output => ?_
    unfold gnu
    cases versionNumber? (majorVersion output) with
    | none => exact Throws.throw id
    | some number => exact Throws.pure _
  · refine Throws.bind (VisualStudio.find?_throws hr) fun found => ?_
    cases found with
    | none => exact Throws.bind Throws.get fun s => Throws.pure _
    | some toolchain => exact Throws.pure _
  · exact Throws.pure _

end Toolchain

/-! ## The ways to fail -/

namespace Preparation

/-- The session that resolution starts from: the naming rule is that of the host. -/
def ruled (bench : Workbench) (s : Session) : Session :=
  { s with env := s.env.setHost bench.host }

def begun (root : Text) (env : Overlay) : Overlay :=
  setPythonPath root (addToolDirectories .windows root env)

/-- The ways in which preparation fails, each with the session that it leaves. -/
inductive Fails (bench : Workbench) (root : Text) (s : Session) : BuildError → Session → Prop where
  | unresolved {e : BuildError} {left : Session}
      (h : Toolchain.resolve bench (ruled bench s) = .error e left) : Fails bench root s e left
  | unsupported (h : bench.host = .unsupported) :
    Fails bench root s (.unsupportedHost .unsupported) (ruled bench s)
  /-- Resolution succeeds on Windows without an installation. -/
  | uninstalled {toolchain : Toolchain} {middle : Session} (hw : bench.host = .windows)
      (h : Toolchain.resolve bench (ruled bench s) = .ok toolchain middle)
      (hn : toolchain.installation = none) :
    Fails bench root s .visualStudioNotFound
      { middle with env := begun root middle.env }

theorem resolve_unsupported {bench : Workbench} (h : bench.host = .unsupported) (s : Session) :
    Toolchain.resolve bench s = .ok .unresolved s := by
  rw [Toolchain.resolve, h]
  rfl

section Outcomes
variable {bench : Workbench} {defaults : ToolDefaults} {root : Bytes} {s left : Session}
  {toolchain : Toolchain} {middle : Session} {e : BuildError}

theorem prepare_of_unresolved (h : Toolchain.resolve bench (ruled bench s) = .error e left) :
    prepare bench defaults root s = .error e left := Run.bind_of_error h _

/-- What becomes of preparation once the toolchain is found. Its last check is not among this: the
toolchain has an identifier wherever the host has a use for it. -/
theorem prepare_of_found
    (h : Toolchain.resolve bench (ruled bench s) = .ok toolchain middle) :
    prepare bench defaults root s =
      if bench.host = .unsupported then .error (.unsupportedHost .unsupported) middle
      else if bench.host = .windows ∧ toolchain.installation = none then
        .error .visualStudioNotFound
          { middle with env := begun (Utf8.decodeLossy root) middle.env }
      else .ok toolchain
        { middle with
          env := equipped bench.host defaults (Utf8.decodeLossy root) toolchain middle.env } := by
  by_cases hu : bench.host = .unsupported
  · rw [if_pos hu]
    refine (Run.bind_of_ok h _).trans ?_
    rw [hu]
    rfl
  rw [if_neg hu]
  by_cases hn : bench.host = .windows ∧ toolchain.installation = none
  · rw [if_pos hn]
    refine (Run.bind_of_ok h _).trans ?_
    rw [hn.1, hn.2]
    simp only [Run.edit_bind]
    rfl
  · rw [if_neg hn]
    have hinstalled (hw : bench.host = .windows) : toolchain.installation.isSome = true := by
      cases hi : toolchain.installation with
      | none => exact absurd ⟨hw, hi⟩ hn
      | some installation => rfl
    -- so that the last check passes
    have hresolved := Toolchain.resolve_resolved bench _ _ _ h ⟨hu, hinstalled⟩
    exact prepare_iff.mpr ⟨middle, h, hu, hinstalled, hresolved, rfl⟩

theorem prepare_error_iff : prepare bench defaults root s = .error e left ↔
    Fails bench (Utf8.decodeLossy root) s e left := by
  constructor
  · intro h
    cases hres : Toolchain.resolve bench (ruled bench s) with
    | error e' middle =>
      rw [prepare_of_unresolved hres] at h
      cases h
      exact .unresolved hres
    | ok toolchain middle =>
      rw [prepare_of_found hres] at h
      split at h
      · rename_i hu
        rw [resolve_unsupported hu] at hres
        cases hres
        cases h
        exact .unsupported hu
      · split at h
        · rename_i hn
          cases h
          exact .uninstalled hn.1 hres hn.2
        · cases h
  · rintro (hres | hu | ⟨hw, hres, hn⟩)
    · exact prepare_of_unresolved hres
    · rw [prepare_of_found (resolve_unsupported hu _), if_pos hu]
    · have hsupported : bench.host ≠ .unsupported := by
        rw [hw]
        decide
      rw [prepare_of_found hres, if_neg hsupported, if_pos ⟨hw, hn⟩]

end Outcomes

/-! ## What a failure leaves -/

/-- The variables that are written before a missing installation is noticed. -/
def earlyNames : List Text := [pathName, pythonPathName]

def earlyWrites (root : Text) : List Write :=
  pathWrites .windows root ++
    [.set pythonPathName (Utf8.encode
      (Host.windows.join root [baseTools, "Source".toList, "Python".toList]))]

theorem begun_eq (root : Text) (env : Overlay) :
    begun root env = applyAll (earlyWrites root) env := by
  rw [begun, addToolDirectories_eq, earlyWrites, applyAll_append]
  rfl

theorem name_mem_earlyNames {root : Text} {call : Write} (h : call ∈ earlyWrites root) :
    call.name ∈ earlyNames := by
  rcases List.mem_append.mp h with h | h
  · rw [name_of_mem_pathWrites h]
    exact List.mem_cons_self
  · rw [List.mem_singleton.mp h]
    exact List.mem_cons_of_mem _ List.mem_cons_self

/-- What is left of an overlay on Windows where the installation is missing. -/
structure Begun (root : Text) (before after : Overlay) : Prop where
  rule : after.ignoreCase = true
  /-- The tool directories that the search path did not list are behind what it held. -/
  path : after.getBytes? pathName = some (lengthened .windows before.searchPath
    ((toolDirectories .windows root).filter fun directory =>
      directory ∉ entries .windows before.searchPath))
  pythonPath : after.getBytes? pythonPathName = some (Utf8.encode
    (Host.windows.join root [baseTools, "Source".toList, "Python".toList]))
  /-- No other variable is written. -/
  others : ∀ name, (∀ early ∈ earlyNames, sameText true early name = false) →
    after.spelling? name = before.spelling? name ∧ after.getBytes? name = before.getBytes? name
  kept : before.names.Sublist after.names
  added : ∀ k ∈ after.names, k ∉ before.names →
    ∃ name ∈ earlyNames, k = Utf8.encode name ∧ before.spelling? name = none
  values : ∀ k ∈ before.names, (∀ name ∈ earlyNames, before.spelling? name ≠ some k) →
    after.lookup k = before.lookup k

theorem begun_begun {before : Overlay} (hrule : before.ignoreCase = true) (root : Text) :
    Begun root before (begun root before) := by
  have huntouched {name : Text} (h : ∀ early ∈ earlyNames, sameText true early name = false) :
      ∀ call ∈ earlyWrites root, sameText before.ignoreCase call.name name = false := by
    intro call hc
    rw [hrule]
    exact h _ (name_mem_earlyNames hc)
  rw [begun_eq]
  refine
    { rule := ?rule, path := ?path, pythonPath := ?pythonPath, others := ?others,
      kept := names_sublist_applyAll _ _, added := ?added, values := ?values }
  case rule => rw [applyAll_ignoreCase, hrule]
  case path =>
    rw [← getBytes?_pathWrites (by decide) root before, earlyWrites, applyAll_append]
    apply getBytes?_applyAll_of_untouched
    intro call hc
    have hother : sameText true pythonPathName pathName = false := by decide
    rw [List.mem_singleton.mp hc, applyAll_ignoreCase, hrule]
    exact hother
  case pythonPath =>
    rw [earlyWrites, applyAll_append]
    exact getBytes?_set_self _ _ _
  case others =>
    intro name h
    exact ⟨spelling?_applyAll_of_untouched (huntouched h),
      getBytes?_applyAll_of_untouched (huntouched h)⟩
  case added =>
    intro k hnew hold
    obtain ⟨call, hc, he, hs⟩ := mem_names_applyAll hnew hold
    exact ⟨call.name, name_mem_earlyNames hc, he, hs⟩
  case values =>
    intro k hold hname
    exact lookup_applyAll_of_untouched hold fun call hc => hname _ (name_mem_earlyNames hc)

/-- The variables that are written only where nothing can fail any more. -/
inductive IsLate : Text → Prop where
  | common {name : Text} (h : name ∈ [toolsName, baseToolsName, workspaceName, confName,
      toolchainName, nasmName, opensslName, iaslName]) : IsLate name
  | installation (year : Text) : IsLate (VisualStudio.prefixVariable year)

theorem IsLate.unlike_early {name : Text} (h : IsLate name) :
    ∀ early ∈ earlyNames, sameText true early name = false := by
  cases h with
  | common h =>
    revert name
    decide
  | installation year =>
    intro early he
    simp only [earlyNames, List.mem_cons, List.not_mem_nil, or_false] at he
    -- the first letters differ already
    rcases he with rfl | rfl <;> rfl

structure Remains (bench : Workbench) (root : Text) (s left : Session) : Prop where
  untouched : Run.succeeds (Toolchain.resolve bench) (ruled bench s) = false ∨
    bench.host = .unsupported → left.env = s.env.setHost bench.host
  begun : Run.succeeds (Toolchain.resolve bench) (ruled bench s) = true ∧
      bench.host ≠ .unsupported →
    Begun root (s.env.setHost .windows) left.env
  spared : ∀ name, IsLate name →
    left.env.spelling? name = (s.env.setHost bench.host).spelling? name ∧
    left.env.getBytes? name = (s.env.setHost bench.host).getBytes? name

section Left
variable {bench : Workbench} {root : Text} {s left : Session} {e : BuildError}

theorem resolve_env (hr : bench.runner.KeepsOverlay) :
    ((Toolchain.resolve bench).after (ruled bench s)).env = s.env.setHost bench.host :=
  (Toolchain.resolve_reads hr).keeps _

theorem Fails.remains (hr : bench.runner.KeepsOverlay) (h : Fails bench root s e left) :
    Remains bench root s left := by
  have hkeep := resolve_env (s := s) hr
  cases h with
  | unresolved hres =>
    rw [after_error hres] at hkeep
    have hfailed : Run.succeeds (Toolchain.resolve bench) (ruled bench s) = false := by
      rw [Run.succeeds, hres]
    refine ⟨fun _ => hkeep, fun hok => ?_, fun name _ => ?_⟩
    · rw [hfailed] at hok
      cases hok.1
    · rw [hkeep]
      exact ⟨rfl, rfl⟩
  | unsupported hu =>
    exact ⟨fun _ => rfl, fun hok => absurd hu hok.2, fun name _ => ⟨rfl, rfl⟩⟩
  | uninstalled hw hres hn =>
    rw [after_ok hres] at hkeep
    have hfound : Run.succeeds (Toolchain.resolve bench) (ruled bench s) = true := by
      rw [Run.succeeds, hres]
    have hbegun : Begun root (s.env.setHost .windows) (begun root (s.env.setHost .windows)) :=
      begun_begun rfl root
    rw [← hw, ← hkeep] at hbegun
    refine ⟨fun hno => ?_, fun _ => ?_, fun name hlate => ?_⟩
    · rcases hno with hno | hno
      · rw [hfound] at hno
        cases hno
      · rw [hw] at hno
        cases hno
    · rw [← hw, ← hkeep]
      exact hbegun
    · rw [← hkeep]
      exact hbegun.others name hlate.unlike_early

end Left

/-- **Preparation fails in three ways.** It fails as resolution does, on a host without a
toolchain, or on Windows without an installation; there is no other way, because a toolchain that
resolution answers with has an identifier wherever the host has a use for it. As far as resolution
does not put its own failures down to the host, the error tells which of the three it was. What was
written before is no more than `Remains` says. -/
theorem prepare_fails {bench : Workbench} (hr : bench.runner.KeepsOverlay) (defaults : ToolDefaults)
    (root : Bytes) (s : Session) :
    (∀ e left, prepare bench defaults root s = .error e left ↔
      Fails bench (Utf8.decodeLossy root) s e left) ∧
    (∀ t toolchain middle, Toolchain.resolve bench t = .ok toolchain middle →
      toolchain.FitFor bench.host → toolchain.isResolved = true) ∧
    (Run.succeeds (Toolchain.resolve bench) (ruled bench s) = true ∨ bench.runner.BlamesNoHost →
      ((∃ host left, prepare bench defaults root s = .error (.unsupportedHost host) left) ↔
        bench.host = .unsupported) ∧
      ((∃ left, prepare bench defaults root s = .error .visualStudioNotFound left) ↔
        bench.host = .windows ∧ ∃ toolchain middle,
          Toolchain.resolve bench (ruled bench s) = .ok toolchain middle ∧
          toolchain.installation = none)) ∧
    ∀ e left, prepare bench defaults root s = .error e left →
      Remains bench (Utf8.decodeLossy root) s left := by
  refine ⟨fun e left => prepare_error_iff, Toolchain.resolve_resolved bench, fun hown => ?_,
    fun e left h => (prepare_error_iff.mp h).remains hr⟩
  have hothers {e : BuildError} {left : Session}
      (h : Toolchain.resolve bench (ruled bench s) = .error e left) : ¬ e.IsOfHost := by
    rcases hown with hok | hblames
    · rw [Run.succeeds, h] at hok
      cases hok
    · exact Toolchain.resolve_throws hblames _ _ _ h
  constructor
  · constructor
    · rintro ⟨host, left, h⟩
      cases prepare_error_iff.mp h with
      | unresolved hres => exact absurd trivial (hothers hres)
      | unsupported hu => exact hu
    · intro hu
      exact ⟨_, _, prepare_error_iff.mpr (.unsupported hu)⟩
  · constructor
    · rintro ⟨left, h⟩
      cases prepare_error_iff.mp h with
      | unresolved hres => exact absurd trivial (hothers hres)
      | uninstalled hw hres hn => exact ⟨hw, _, _, hres, hn⟩
    · rintro ⟨hw, toolchain, middle, hres, hn⟩
      exact ⟨_, prepare_error_iff.mpr (.uninstalled hw hres hn)⟩

/-- A session with a search path and no trace of an installation. -/
def bareSession : Session where
  env := .ofList [(Utf8.encode "Path".toList, Utf8.encode "C:\\bin".toList)]
  disk := default

theorem prepare_bare_fails :
    ∃ left, prepare legacyBench {} (Utf8.encode "D:\\ws".toList) bareSession =
        .error .visualStudioNotFound left ∧
      Remains legacyBench (Utf8.decodeLossy (Utf8.encode "D:\\ws".toList)) bareSession left := by
  have hr : legacyBench.runner.KeepsOverlay := Runner.scripted_keepsOverlay fun _ => .notFound
  have hown : legacyBench.runner.BlamesNoHost := Runner.scripted_blamesNoHost fun _ => .notFound
  obtain ⟨-, -, hexact, hremains⟩ :=
    prepare_fails hr {} (Utf8.encode "D:\\ws".toList) bareSession
  obtain ⟨left, h⟩ := (hexact (.inr hown)).2.mpr ⟨rfl, .unresolved, _, rfl, rfl⟩
  exact ⟨left, h, hremains _ _ h⟩

end Preparation

end FirmwareBuild
