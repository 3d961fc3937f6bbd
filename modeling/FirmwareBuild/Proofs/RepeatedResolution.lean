import FirmwareBuild.Proofs.RepeatedPreparation

/-! # Resolving again

Of an overlay resolution reads three variables, as text. Two overlays that give the
same readings under their own naming rules are one to it, whatever else they hold and
however the three are spelled. Preparation writes none of the three, and neither does
naming the workspace, so that the toolchain of a preparation is found again behind
all steps that keep to other variables (`resolve_reads_only`). -/

namespace FirmwareBuild

open Overlay

namespace Toolchain

/-- The variables that resolution reads have the same texts, or none. -/
def SameReadings (env env' : Overlay) : Prop := ∀ name ∈ readNames, env'.get? name = env.get? name

inductive Rewriting where
  | pin (root : Bytes)
  | call (call : Write)

namespace Rewriting

def step : Rewriting → Run Unit
  | pin root => Workspace.pin root
  | call c => Run.edit c.apply

/-- Under a naming rule the step is about no variable that resolution reads. -/
def Spares (ignoreCase : Bool) : Rewriting → Prop
  | pin _ => True
  | call c => ∀ name ∈ readNames, sameText ignoreCase c.name name = false

/-- Naming the workspace is one more call. -/
def write : Rewriting → Write
  | pin root => .set workspaceName root
  | call c => c

theorem step_run (rewriting : Rewriting) (s : Session) :
    rewriting.step s = .ok () { s with env := rewriting.write.apply s.env } := by
  cases rewriting <;> rfl

theorem Spares.write {ignoreCase : Bool} {rewriting : Rewriting}
    (h : rewriting.Spares ignoreCase) :
    ∀ name ∈ readNames, sameText ignoreCase rewriting.write.name name = false := by
  cases rewriting with
  | pin root =>
    change ∀ name ∈ readNames, sameText ignoreCase workspaceName name = false
    cases ignoreCase <;> decide
  | call c => exact h

/-- One step keeps the readings. -/
theorem Spares.sameReadings {env : Overlay} {rewriting : Rewriting}
    (h : rewriting.Spares env.ignoreCase) : SameReadings env (rewriting.write.apply env) := by
  intro name hname
  rw [get?, get?, Write.getBytes?_apply_of_other (h.write name hname)]

/-- Any number of steps keep the readings and the disk. -/
theorem forM_step {rewritings : List Rewriting} {s : Session}
    (h : ∀ rewriting ∈ rewritings, rewriting.Spares s.env.ignoreCase) :
    ∃ left, rewritings.forM step s = .ok () left ∧ left.disk = s.disk ∧
      SameReadings s.env left.env := by
  induction rewritings generalizing s with
  | nil => exact ⟨s, rfl, rfl, fun _ _ => rfl⟩
  | cons first rest ih =>
    have hfirst := h first List.mem_cons_self
    have hrest : ∀ rewriting ∈ rest,
        rewriting.Spares (first.write.apply s.env).ignoreCase := by
      intro rewriting hr
      rw [Write.apply_ignoreCase]
      exact h rewriting (List.mem_cons_of_mem _ hr)
    obtain ⟨left, hrun, hdisk, hsame⟩ := ih (s := { s with env := first.write.apply s.env }) hrest
    refine ⟨left, ?_, hdisk, fun name hname => ?_⟩
    · exact (Run.bind_of_ok (first.step_run s) _).trans hrun
    · rw [hsame name hname, hfirst.sameReadings name hname]

end Rewriting

/-- **Resolution looks only at what it may.** Where the files are the same and the three variables
read the same, it launches the same commands, at most one, and comes to the same end. So it finds
the toolchain of a preparation again after any steps on other variables, naming the workspace
among them. -/
theorem resolve_reads_only (host : Host) (script : Text → Reply) (probe : Probe) :
    (∀ s s' : Session, s'.disk = s.disk → SameReadings s.env s'.env →
      ∃ launched outcome, launched.length ≤ 1 ∧
        resolve ⟨host, .scripted script, probe⟩ s = Run.ends s launched outcome ∧
        resolve ⟨host, .scripted script, probe⟩ s' = Run.ends s' launched outcome) ∧
    ∀ (defaults : ToolDefaults) (root : Bytes) (s prepared : Session) (toolchain : Toolchain),
      Preparation.prepare ⟨host, .scripted script, probe⟩ defaults root s =
          .ok toolchain prepared →
        ∀ rewritings : List Rewriting,
          (∀ rewriting ∈ rewritings, rewriting.Spares prepared.env.ignoreCase) →
            ∃ left launched, rewritings.forM Rewriting.step prepared = .ok () left ∧
              launched.length ≤ 1 ∧ resolve ⟨host, .scripted script, probe⟩ left =
                Run.ends left launched (.ok toolchain) := by
  refine ⟨fun s s' hdisk hsame => resolve_congr rfl hdisk hsame, ?_⟩
  intro defaults root s prepared toolchain h rewritings hspares
  obtain ⟨left, hrun, hdisk, hsame⟩ := Rewriting.forM_step hspares
  obtain ⟨launched, hone, hresolve⟩ := Preparation.resolve_prepared rfl h hdisk hsame
  exact ⟨left, launched, hrun, hone, hresolve⟩

/-- Another environment with the older release, under another spelling and with more in it. -/
def respelledSession : Session where
  env := (Overlay.ofList [(Utf8.encode "vs140comntools".toList,
      Utf8.encode Preparation.legacyTools),
    (Utf8.encode "TOOL_CHAIN".toList, Utf8.encode "GCC5".toList)]).setHost .windows
  disk := default

/-- Steps behind a preparation: the workspace gets a name, and the search path and a variable of
the user are written. -/
def laterRewritings : List Rewriting :=
  [.pin (Utf8.encode "E:\\other".toList), .call (.appendPath .posix "bin".toList),
    .call (.setDefault "vs140comntool".toList [])]

theorem resolve_reads_only_legacy :
    SameReadings Preparation.legacySession.env respelledSession.env ∧
    (∃ launched outcome, launched.length ≤ 1 ∧
      resolve Preparation.legacyBench Preparation.legacySession =
        Run.ends Preparation.legacySession launched outcome ∧
      resolve Preparation.legacyBench respelledSession =
        Run.ends respelledSession launched outcome) ∧
    ∃ prepared, Preparation.prepare Preparation.legacyBench {} (Utf8.encode "D:\\ws".toList)
        Preparation.legacySession =
          .ok (VisualStudio.legacy "2015".toList Preparation.legacyTools) prepared ∧
      (∀ rewriting ∈ laterRewritings, rewriting.Spares prepared.env.ignoreCase) ∧
      ∃ left launched, laterRewritings.forM Rewriting.step prepared = .ok () left ∧
        launched.length ≤ 1 ∧ resolve Preparation.legacyBench left = Run.ends left launched
          (.ok (VisualStudio.legacy "2015".toList Preparation.legacyTools)) := by
  have hsame : SameReadings Preparation.legacySession.env respelledSession.env := by
    unfold SameReadings
    decide
  obtain ⟨prepared, h, hrule⟩ : ∃ prepared, Preparation.prepare Preparation.legacyBench {}
      (Utf8.encode "D:\\ws".toList) Preparation.legacySession =
        .ok (VisualStudio.legacy "2015".toList Preparation.legacyTools) prepared ∧
      prepared.env.ignoreCase = true := ⟨_, rfl, rfl⟩
  have hspares : ∀ rewriting ∈ laterRewritings, rewriting.Spares prepared.env.ignoreCase := by
    rw [hrule]
    simp only [laterRewritings, List.mem_cons, List.not_mem_nil, or_false]
    rintro rewriting (rfl | rfl | rfl)
    · trivial
    · change ∀ name ∈ readNames, sameText true pathName name = false
      decide
    · change ∀ name ∈ readNames, sameText true "vs140comntool".toList name = false
      decide
  obtain ⟨hread, hagain⟩ := resolve_reads_only .windows (fun _ => .notFound) (.ofLists [] [])
  exact ⟨hsame, hread _ _ rfl hsame, prepared, h, hspares, hagain _ _ _ _ _ h _ hspares⟩

end Toolchain

end FirmwareBuild
