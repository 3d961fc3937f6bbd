import FirmwareBuild.Proofs.CommandOutcomes
import FirmwareBuild.Proofs.OverlayRefinement
import FirmwareBuild.Proofs.StandingPaths
import FirmwareBuild.Proofs.ToolSteps
import Mathlib.Data.List.Basic
import Mathlib.Logic.Relation

/-! # Tools that were found stay found

Where more paths are there, no more tools are missing. Adding files, writing to other
variables than the name of the workspace and making sure of the tools take nothing
away and leave the workspace that is looked in as it is (`Situation.Next.keeps`). The
tools are looked for once the interpreter was asked (`ensure_asked`). So once all of
them were there, they are not built again, however much happens in between
(`tools_stay`). -/

namespace FirmwareBuild

open Run

namespace Runner

/-- A runner launches every command, with the overlay, and answers in some way. Meanwhile something
may appear, but nothing that is looked for goes. -/
structure Replies (probe : Probe) (runner : Runner) : Prop where
  overlay : KeepsOverlay runner
  notes : Notes runner
  adds : ∀ command s path, probe.pathExists s.disk path = true →
    probe.pathExists ((runner command).after s).disk path = true

theorem scripted_replies (probe : Probe) (script : Text → Reply) :
    Replies probe (scripted script) := by
  refine ⟨scripted_keepsOverlay script, scripted_notes script, fun command s path hp => ?_⟩
  have hkeeps : Run.Keeps Session.disk (scripted script command) :=
    scripted_keeps (fun _ _ => rfl) script command
  rw [hkeeps s]
  exact hp

/-- So does one that starts programs which take nothing away. -/
theorem onMachine_replies {machine : Machine}
    (h : ∀ argv vars (disk : Disk), disk.Extends (machine argv vars disk).2) :
    Replies .ofDisk (onMachine machine) := by
  refine ⟨onMachine_keepsOverlay machine, onMachine_notes machine, fun command s path hp => ?_⟩
  have hextends : s.disk.Extends ((onMachine machine command).after s).disk := by
    by_cases hargv : command.argv = []
    · have hempty : command.argv.isEmpty = true := List.isEmpty_iff.mpr hargv
      unfold onMachine
      simp only [hempty, if_true]
      split <;> exact .refl _
    · have hmachine := h command.argv s.env.vars s.disk
      rw [Run.after, onMachine_eq hargv]
      generalize machine command.argv s.env.vars s.disk = said at hmachine
      obtain ⟨cause | ⟨status, output⟩, disk⟩ := said
      · exact hmachine
      · by_cases hzero : status = 0
        · rw [conclude, if_pos hzero]
          exact hmachine
        · rw [conclude, if_neg hzero]
          exact hmachine
  exact hextends.within.pathExists hextends.working hp

end Runner

namespace PrebuiltTools

/-! ## One look at the tools -/

section Missing
variable {bench other : Workbench} {disk disk' : Disk} {workspace tool : Text}

theorem missing_sublist : (missing bench disk workspace).Sublist required := List.filter_sublist

theorem mem_missing : tool ∈ missing bench disk workspace ↔ tool ∈ required ∧
    bench.probe.pathExists disk (toolPath bench.host workspace tool) = false := by
  rw [missing, List.mem_filter, Bool.not_eq_eq_eq_not, Bool.not_true]

theorem missing_eq_nil : missing bench disk workspace = [] ↔ ∀ tool ∈ required,
    bench.probe.pathExists disk (toolPath bench.host workspace tool) = true := by
  simp [missing]

/-- Where more is there, less is missing. -/
theorem missing_of_more (hhost : other.host = bench.host)
    (h : ∀ path, bench.probe.pathExists disk path = true →
      other.probe.pathExists disk' path = true) :
    (missing other disk' workspace).Sublist (missing bench disk workspace) := by
  unfold missing
  rw [hhost]
  refine List.monotone_filter_right _ fun tool hnow => ?_
  cases hb : bench.probe.pathExists disk (toolPath bench.host workspace tool) with
  | false => rfl
  | true =>
    rw [h _ hb] at hnow
    cases hnow

end Missing

/-! ## What one step leaves -/

structure Situation where
  probe : Probe
  session : Session

namespace Situation

def sees (now : Situation) (path : Text) : Bool := now.probe.pathExists now.session.disk path

def workspace (now : Situation) : Text := (now.session.env.get? workspaceName).getD ".".toList

def IsReady (host : Host) (now : Situation) : Prop :=
  ∀ tool ∈ required, now.sees (toolPath host now.workspace tool) = true

instance (host : Host) (now : Situation) : Decidable (now.IsReady host) :=
  inferInstanceAs (Decidable (∀ tool ∈ required,
    now.sees (toolPath host now.workspace tool) = true))

/-- What was there still is, and the workspace is the one that it was. -/
structure Keeps (old new : Situation) : Prop where
  seen : ∀ path, old.sees path = true → new.sees path = true
  workspace : new.session.env.getBytes? workspaceName = old.session.env.getBytes? workspaceName

namespace Keeps
variable {old middle new : Situation} {host : Host}

theorem refl (now : Situation) : now.Keeps now := ⟨fun _ hp => hp, rfl⟩

theorem trans (h : old.Keeps middle) (h' : middle.Keeps new) : old.Keeps new :=
  ⟨fun path hp => h'.seen path (h.seen path hp), h'.workspace.trans h.workspace⟩

theorem isReady (h : old.Keeps new) (hr : old.IsReady host) : new.IsReady host := by
  have hsame : new.workspace = old.workspace := by
    rw [Situation.workspace, Situation.workspace, Overlay.get?, Overlay.get?, h.workspace]
  intro tool ht
  rw [hsame]
  exact h.seen _ (hr tool ht)

/-- A step and another one behind it. -/
theorem bind {α β : Type} {probe : Probe} {x : Run α} {f : α → Run β} {s : Session}
    (hx : Keeps ⟨probe, s⟩ ⟨probe, x.after s⟩)
    (hf : ∀ a left, Keeps ⟨probe, left⟩ ⟨probe, (f a).after left⟩) :
    Keeps ⟨probe, s⟩ ⟨probe, (x >>= f).after s⟩ := by
  cases h : x s with
  | error e left =>
    rw [after_error (bind_of_error h f), ← after_error h]
    exact hx
  | ok a left =>
    rw [after_ok h] at hx
    rw [after_bind_of_ok h]
    exact hx.trans (hf a left)

end Keeps

end Situation

open Situation

section Ensure
variable {bench : Workbench} {s : Session}

/-- Noting an interpreter is no change of the workspace. -/
theorem setText_pythonName (env : Overlay) (interpreter : Text) :
    (env.setText pythonName interpreter).getBytes? workspaceName =
      env.getBytes? workspaceName := by
  have hother : ∀ ignoreCase, Overlay.sameText ignoreCase pythonName workspaceName = false := by
    decide
  rw [Overlay.setText, Overlay.getBytes?_set, hother]
  rfl

section Steps
variable (h : bench.runner.Replies bench.probe) (s : Session)
include h

theorem runner_keepsSituation (command : Command) :
    Keeps ⟨bench.probe, s⟩ ⟨bench.probe, (bench.runner command).after s⟩ :=
  ⟨h.adds command s, congrArg (·.getBytes? workspaceName) (h.overlay command s)⟩

theorem detectPython_keepsSituation :
    Keeps ⟨bench.probe, s⟩ ⟨bench.probe, (detectPython bench).after s⟩ := by
  refine Keeps.bind (runner_keepsSituation h s _) fun answer left => ?_
  split
  · exact ⟨fun _ hp => hp, setText_pythonName _ _⟩
  · exact ⟨fun _ hp => hp, setText_pythonName _ _⟩

theorem rebuild_keepsSituation :
    Keeps ⟨bench.probe, s⟩ ⟨bench.probe, (rebuild bench).after s⟩ := by
  have hmake (s : Session) : Keeps ⟨bench.probe, s⟩ ⟨bench.probe, (do
      let _ ← Run.mapError (wrapFailure .toolsRebuild) (bench.runner (rebuildCommand bench.host))
      pure () : Run Unit).after s⟩ := by
    refine Keeps.bind ?_ fun _ left => .refl _
    rw [after_mapError]
    exact runner_keepsSituation h s _
  unfold rebuild
  split
  · exact Keeps.bind ⟨fun _ hp => hp, rfl⟩ fun _ => hmake
  · exact hmake s

theorem makeMissing_keepsSituation :
    Keeps ⟨bench.probe, s⟩ ⟨bench.probe, (makeMissing bench).after s⟩ := by
  unfold makeMissing
  change Keeps _ ⟨_, (if (missing bench s.disk
    ((s.env.get? workspaceName).getD ".".toList)).isEmpty then pure false
      else rebuild bench >>= fun _ => pure true : Run Bool).after s⟩
  split
  · exact .refl _
  · exact Keeps.bind (rebuild_keepsSituation h s) fun _ left => .refl _

end Steps

/-- **Making sure of the tools takes nothing away and leaves the workspace as it was.** -/
theorem ensure_keepsSituation (bench : Workbench) (h : bench.runner.Replies bench.probe)
    (s : Session) : Keeps ⟨bench.probe, s⟩ ⟨bench.probe, (ensure bench).after s⟩ := by
  rw [ensure_eq]
  split
  · exact Keeps.bind (detectPython_keepsSituation h s) fun _ => makeMissing_keepsSituation h
  · exact makeMissing_keepsSituation h s

/-! ## What making sure of the tools launches -/

theorem makeMissing_ready (hr : IsReady bench.host ⟨bench.probe, s⟩) :
    makeMissing bench s = .ok false s := by
  have hnone : missing bench s.disk (Situation.workspace ⟨bench.probe, s⟩) = [] :=
    missing_eq_nil.mpr hr
  unfold makeMissing
  change (if (missing bench s.disk (Situation.workspace ⟨bench.probe, s⟩)).isEmpty then pure false
    else rebuild bench >>= fun _ => pure true : Run Bool) s = _
  rw [hnone]
  rfl

theorem makeMissing_unready (hr : ¬ IsReady bench.host ⟨bench.probe, s⟩) :
    makeMissing bench s = (rebuild bench >>= fun _ => pure true) s := by
  have hsome : ¬ (missing bench s.disk (Situation.workspace ⟨bench.probe, s⟩)).isEmpty = true :=
    fun hempty => hr (missing_eq_nil.mp (List.isEmpty_iff.mp hempty))
  unfold makeMissing
  change (if (missing bench s.disk (Situation.workspace ⟨bench.probe, s⟩)).isEmpty then pure false
    else rebuild bench >>= fun _ => pure true : Run Bool) s = _
  rw [if_neg hsome]

theorem rebuild_launches (h : bench.runner.Notes) (s : Session) :
    ((rebuild bench).after s).launches =
      s.launches ++ launchesWith s.env [rebuildCommand bench.host] := by
  have hargv : (rebuildCommand bench.host).argv ≠ [] := by cases bench.host <;> decide
  have hmake (s : Session) : ((do
      let _ ← Run.mapError (wrapFailure .toolsRebuild) (bench.runner (rebuildCommand bench.host))
      pure () : Run Unit).after s).launches =
        s.launches ++ launchesWith s.env [rebuildCommand bench.host] := by
    have hrun := @Run.Keeps.after_bind _ _ _ Session.launches _ (fun _ => Run.Keeps.pure ())
      (Run.mapError (wrapFailure .toolsRebuild) (bench.runner (rebuildCommand bench.host))) s
    rw [hrun, after_mapError]
    exact h _ s hargv
  unfold rebuild
  split
  · exact hmake _
  · exact hmake s

/-- How the interpreter answers decides how the question ends, and nothing else is launched. -/
theorem detectPython_runner (bench : Workbench) (s : Session) :
    (detectPython bench).error? s = (bench.runner pythonCommand).error? s ∧
      ((detectPython bench).after s).launches =
        ((bench.runner pythonCommand).after s).launches := by
  constructor
  · refine error?_bind (fun answer left => ?_) s
    split <;> rfl
  · refine (@Run.Keeps.after_bind _ _ _ Session.launches _ (fun answer => ?_) _ s)
    split
    · exact Run.Keeps.bind (fun _ => rfl) fun _ => Run.Keeps.say (fun _ _ => rfl) _
    · exact fun _ => rfl

/-- The commands that are launched before the tools are looked for. -/
def questions (host : Host) : List Command := if host.isPosixLike then [pythonCommand] else []

/-- The error of the question to the interpreter, if it is asked and fails. -/
def unanswered? (bench : Workbench) (s : Session) : Option BuildError :=
  if bench.host.isPosixLike then (bench.runner pythonCommand).error? s else none

def asked (bench : Workbench) (s : Session) : Session :=
  if bench.host.isPosixLike then (detectPython bench).after s else s

theorem asked_launches (h : bench.runner.Notes) (s : Session) :
    (asked bench s).launches = s.launches ++ launchesWith s.env (questions bench.host) := by
  unfold asked questions
  split
  · rw [(detectPython_runner bench s).2]
    exact h pythonCommand s (List.cons_ne_nil _ _)
  · exact (List.append_nil _).symm

theorem asked_keepsSituation (h : bench.runner.Replies bench.probe) (s : Session) :
    Keeps ⟨bench.probe, s⟩ ⟨bench.probe, asked bench s⟩ := by
  unfold asked
  split
  · exact detectPython_keepsSituation h s
  · exact .refl _

/-- **The question comes first.** If it fails that is all, and otherwise the tools that are missing
then are made. -/
theorem ensure_asked (bench : Workbench) (s : Session) : ensure bench s =
    match unanswered? bench s with
    | some e => .error e (asked bench s)
    | none => makeMissing bench (asked bench s) := by
  rw [ensure_eq]
  unfold unanswered? asked
  split
  · rw [← (detectPython_runner bench s).1]
    cases hp : detectPython bench s with
    | error e left => rw [bind_of_error hp, error?_error hp, after_error hp]
    | ok u left => rw [bind_of_ok hp, error?_ok hp, after_ok hp]
  · rfl

structure BuildsNothing (bench : Workbench) (s : Session) : Prop where
  /-- Nothing is launched but the question to the interpreter. -/
  launches : ((ensure bench).after s).launches =
    s.launches ++ launchesWith s.env (questions bench.host)
  /-- The answer is that nothing had to be built. -/
  answer : ∀ built left, ensure bench s = .ok built left → built = false
  /-- There is one unless the question fails, and then its error is given. -/
  error : (ensure bench).error? s = unanswered? bench s

theorem ensure_ready (h : bench.runner.Replies bench.probe)
    (hr : IsReady bench.host ⟨bench.probe, s⟩) : BuildsNothing bench s := by
  have hensure := ensure_asked bench s
  rw [makeMissing_ready ((asked_keepsSituation h s).isReady hr)] at hensure
  have hlaunches := asked_launches h.notes s
  cases hq : unanswered? bench s with
  | some e =>
    rw [hq] at hensure
    refine ⟨by rw [after_error hensure, hlaunches], fun built left hok => ?_, ?_⟩
    · rw [hensure] at hok
      cases hok
    · rw [error?_error hensure, hq]
  | none =>
    rw [hq] at hensure
    refine ⟨by rw [after_ok hensure, hlaunches], fun built left hok => ?_, ?_⟩
    · rw [hensure] at hok
      cases hok
      rfl
    · rw [error?_ok hensure, hq]

structure BuildsOnce (bench : Workbench) (s : Session) : Prop where
  /-- The question to the interpreter is launched, and then what builds the tools. -/
  launches : ((ensure bench).after s).launches =
    s.launches ++ launchesWith s.env (questions bench.host) ++
      launchesWith (asked bench s).env [rebuildCommand bench.host]
  /-- The answer is that they had to be built. -/
  answer : ∀ built left, ensure bench s = .ok built left → built = true

theorem ensure_unready (h : bench.runner.Notes) (hq : unanswered? bench s = none)
    (hr : ¬ IsReady bench.host ⟨bench.probe, asked bench s⟩) : BuildsOnce bench s := by
  have hensure := ensure_asked bench s
  rw [hq] at hensure
  dsimp only at hensure
  rw [makeMissing_unready hr] at hensure
  refine ⟨?_, fun built left hok => ?_⟩
  · have hlast := @Run.Keeps.after_bind _ _ _ Session.launches _
      (fun _ => Run.Keeps.pure true) (rebuild bench) (asked bench s)
    rw [Run.after, hensure, ← Run.after, hlast, rebuild_launches h, asked_launches h]
  · obtain ⟨u, middle, -, hlast⟩ := bind_eq_ok (hensure.symm.trans hok)
    cases hlast
    rfl

end Ensure

/-! ## Histories -/

/-- What comes next: something appears and nothing goes, a variable is written that is not the name
of the workspace, or the tools are made sure of with some runner. -/
inductive Situation.Next (host : Host) : Situation → Situation → Prop where
  | add {now : Situation} {probe : Probe} {disk : Disk}
      (more : ∀ path, now.sees path = true → probe.pathExists disk path = true) :
    Next host now ⟨probe, { now.session with disk }⟩
  | write {now : Situation} {call : Overlay.Write}
      (other : Overlay.sameText now.session.env.ignoreCase call.name workspaceName = false) :
    Next host now { now with session := { now.session with env := call.apply now.session.env } }
  | ensure {now : Situation} {runner : Runner} (replies : runner.Replies now.probe) :
    Next host now { now with
      session := (PrebuiltTools.ensure ⟨host, runner, now.probe⟩).after now.session }

abbrev Situation.Later (host : Host) : Situation → Situation → Prop :=
  Relation.ReflTransGen (Next host)

section Histories
variable {host : Host} {old new : Situation}

/-- Files and directories that are added to a disk are something that appears. -/
theorem Situation.Next.addition (host : Host) (addition : Disk.Addition) (s : Session) :
    Next host ⟨.ofDisk, s⟩ ⟨.ofDisk, { s with disk := Disk.left (addition.change s.disk) }⟩ := by
  have hextends := addition.extends s.disk
  exact .add fun _ hp => hextends.within.pathExists hextends.working hp

/-- So are those that are added to lists. -/
theorem Situation.Next.list (host : Host) {s : Session} {files files' : List (Text × Text)}
    {directories directories' : List Text} (hfiles : files ⊆ files')
    (hdirectories : directories ⊆ directories') :
    Next host ⟨.ofLists files directories, s⟩ ⟨.ofLists files' directories', s⟩ := by
  refine Next.add fun path hp => ?_
  rcases Bool.or_eq_true_iff.mp hp with hf | hd
  · obtain ⟨entry, he, hname⟩ := List.lookup_isSome_iff.mp hf
    exact Bool.or_eq_true_iff.mpr (.inl (List.lookup_isSome_iff.mpr ⟨entry, hfiles he, hname⟩))
  · have hm := hdirectories (List.contains_iff_mem.mp hd)
    exact Bool.or_eq_true_iff.mpr (.inr (List.contains_iff_mem.mpr hm))

theorem Situation.Next.keeps (h : Next host old new) : old.Keeps new := by
  cases h with
  | add more => exact ⟨more, rfl⟩
  | write other => exact ⟨fun _ hp => hp, Overlay.Write.getBytes?_apply_of_other other⟩
  | @ensure runner replies =>
    exact ensure_keepsSituation ⟨host, runner, old.probe⟩ replies old.session

theorem Situation.Later.keeps (h : Later host old new) : old.Keeps new := by
  induction h with
  | refl => exact .refl old
  | tail _ next ih => exact ih.trans next.keeps

end Histories

/-- **Tools that were all there are not built again.** What is missing are the required tools, in
their order, whose paths name nothing, and where more paths name something no more of them are.
After a history in which things appear, other variables than the name of the workspace are written
and the tools are made sure of, with whatever answers of commands, the tools are all there if they
once were: making sure of them launches no more than the question to the interpreter, and answers
that nothing was built or with the error of that question. Where a tool is missing once the question
is answered, they are built once. -/
theorem tools_stay (host : Host) :
    (∀ runner probe disk workspace,
      (missing ⟨host, runner, probe⟩ disk workspace).Sublist required ∧
      ∀ tool, tool ∈ missing ⟨host, runner, probe⟩ disk workspace ↔ tool ∈ required ∧
        probe.pathExists disk
          (host.join (binDirectory host workspace) [tool ++ host.exeSuffix]) = false) ∧
    (∀ runner probe disk runner' probe' disk' workspace,
      (∀ path, probe.pathExists disk path = true → probe'.pathExists disk' path = true) →
        (missing ⟨host, runner', probe'⟩ disk' workspace).Sublist
          (missing ⟨host, runner, probe⟩ disk workspace)) ∧
    (∀ old : Situation, old.IsReady host → ∀ new, Later host old new →
      new.IsReady host ∧ ∀ runner : Runner, runner.Replies new.probe →
        BuildsNothing ⟨host, runner, new.probe⟩ new.session) ∧
    ∀ (now : Situation) (runner : Runner), runner.Notes →
      unanswered? ⟨host, runner, now.probe⟩ now.session = none →
      ¬ IsReady host ⟨now.probe, asked ⟨host, runner, now.probe⟩ now.session⟩ →
        BuildsOnce ⟨host, runner, now.probe⟩ now.session := by
  refine ⟨fun runner probe disk workspace => ⟨missing_sublist, fun tool => mem_missing⟩,
    fun runner probe disk runner' probe' disk' workspace hmore => missing_of_more rfl hmore,
    fun old hr new hlater => ?_, fun now runner hnotes hanswered hr => ?_⟩
  · have hready := hlater.keeps.isReady hr
    exact ⟨hready, fun runner hreplies => ensure_ready hreplies hready⟩
  · exact ensure_unready hnotes hanswered hr

/-- A workspace with all tools, which are one file. -/
def toolShed : Disk where
  nodes := #[.directory 0 [(Utf8.encode "ws".toList, 1)],
    .directory 0 [(Utf8.encode "BaseTools".toList, 2)],
    .directory 1 [(Utf8.encode "Source".toList, 3)],
    .directory 2 [(Utf8.encode "C".toList, 4)],
    .directory 3 [(Utf8.encode "bin".toList, 5)],
    .directory 4 (required.map fun tool => (Utf8.encode tool, 6)),
    .file nativeMark scriptMode]
  cwd := 0

def furnished : Situation where
  probe := .ofDisk
  session := { disk := toolShed, env := Overlay.empty.setText workspaceName "/ws".toList }

def logFile : Disk.Addition := .file (Utf8.encode "/ws/log".toList) [] plainMode

def logged : Session :=
  { furnished.session with disk := Disk.left (logFile.change furnished.session.disk) }

/-- The file was written, and then a variable was set that is not the name of the workspace. -/
def rearranged : Session :=
  { logged with env := (Overlay.Write.set "workspace".toList []).apply logged.env }

theorem furnished_later : Later .posix furnished ⟨.ofDisk, rearranged⟩ := by
  have hlogged : Next .posix furnished ⟨.ofDisk, logged⟩ := .addition .posix logFile _
  have hwritten : Next .posix ⟨.ofDisk, logged⟩ ⟨.ofDisk, rearranged⟩ := .write (by decide)
  exact .tail (.single hlogged) hwritten

def quiet : Runner := .scripted fun _ => .output []

theorem tools_stay_furnished : furnished.IsReady .posix ∧
    (∃ new, Later .posix furnished new ∧ new.session.launches.length = 1 ∧ new.IsReady .posix ∧
      (∀ script, BuildsNothing ⟨.posix, .scripted script, new.probe⟩ new.session) ∧
      BuildsNothing ⟨.posix, .onMachine Runner.reciting, new.probe⟩ new.session) ∧
    BuildsOnce ⟨.posix, quiet, .ofDisk⟩ { disk := .empty } := by
  have hready : furnished.IsReady .posix := by decide +kernel
  obtain ⟨-, -, hstay, hmissing⟩ := tools_stay .posix
  have hreplies (script : Text → Reply) := Runner.scripted_replies .ofDisk script
  -- the tools are made sure of once without an interpreter, and then again
  obtain ⟨-, hfirst⟩ := hstay furnished hready _ furnished_later
  have hlater : Later .posix furnished _ :=
    furnished_later.tail (Next.ensure (hreplies fun _ => .notFound))
  obtain ⟨hready', hsecond⟩ := hstay furnished hready _ hlater
  refine ⟨hready, ⟨_, hlater, ?_, hready', fun script => hsecond _ (hreplies script),
    hsecond _ (Runner.onMachine_replies fun _ _ disk => .refl disk)⟩, ?_⟩
  · exact congrArg List.length (hfirst _ (hreplies fun _ => .notFound)).launches
  · exact hmissing ⟨.ofDisk, { disk := .empty }⟩ quiet (Runner.scripted_notes _) rfl
      (by decide +kernel)

end PrebuiltTools

end FirmwareBuild
