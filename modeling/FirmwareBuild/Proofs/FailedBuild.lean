import FirmwareBuild.Proofs.FailedPreparation
import FirmwareBuild.Proofs.OneWorkspace

/-! # How a build fails

A build fails with the error of the first stage that fails. What that error is depends
on the stage: a failed command is put below an error of its own where the tools or the
payload are made and stands alone where the interpreter is asked, a command that could
not be started always stands alone, and an error about a file is one of seeding. The
error therefore tells what failed, and nothing else does it come from (`run_blames`). -/

namespace FirmwareBuild

open Run

def BuildError.IsOfFile (e : BuildError) : Prop := ∃ action path cause, e = .io action path cause

theorem ConfDirectory.seed_throws (workspace : Bytes) :
    Throws BuildError.IsOfFile (seed workspace) := by
  have hcopy (files : List Text) : Throws BuildError.IsOfFile (copyMissing workspace files) := by
    induction files with
    | nil => exact Throws.pure _
    | cons file rest ih =>
      refine Throws.bind Throws.get fun s => ?_
      split
      · exact ih
      · exact Throws.bind (Throws.onDisk (fun cause => ⟨_, _, cause, rfl⟩) _) fun _ =>
          Throws.bind ih fun _ => Throws.pure _
  exact Throws.bind (Throws.onDisk (fun cause => ⟨_, _, cause, rfl⟩) _) fun _ => hcopy files

namespace Phases
open PrebuiltTools Runner

namespace Setting
variable (setting : Setting)

/-! ## The error of a stage -/

/-- The error that a stage ends with, if it fails, where seeding starts on `disk`. -/
def failure? (disk : Disk) : Stage → Option BuildError
  | .interpreter => refusal? setting.script pythonCommand
  | .tools => (refusal? setting.script (rebuildCommand setting.host)).map
      (wrapFailure .toolsRebuild)
  | .seeding => (ConfDirectory.seed setting.workspace).error? { disk }
  | .payload => (refusal? setting.script
      (setting.request.command setting.host setting.parameters)).map (wrapFailure .payloadBuild)

theorem failure?_isNone (disk : Disk) (stage : Stage) :
    (setting.failure? disk stage).isNone = setting.passes disk stage := by
  cases stage with
  | seeding =>
    rw [failure?, passes, ConfDirectory.isSeedable, Run.error?, Run.succeeds]
    cases ConfDirectory.seed setting.workspace { disk } <;> rfl
  | interpreter => exact refusal?_isNone _ _
  | tools => rw [failure?, Option.isNone_map, refusal?_isNone, passes]
  | payload => rw [failure?, Option.isNone_map, refusal?_isNone, passes]

def wrapping : Stage → BuildError → BuildError
  | .tools => wrapFailure .toolsRebuild
  | .payload => wrapFailure .payloadBuild
  | .interpreter | .seeding => id

section Command
variable {stage : Stage} {command : Command} (h : setting.command? stage = some command)
include h

theorem failure?_of_command (disk : Disk) :
    setting.failure? disk stage = (refusal? setting.script command).map (wrapping stage) := by
  cases stage with
  | seeding => cases h
  | interpreter =>
    obtain rfl := Option.some.inj h
    exact Option.map_id'.symm
  | tools | payload =>
    obtain rfl := Option.some.inj h
    rfl

theorem failure?_of_exit (disk : Disk) {status : Nat}
    (hreply : setting.script command.line = .exit status) :
    setting.failure? disk stage = some (wrapping stage (.commandFailed command.line status)) := by
  rw [setting.failure?_of_command h, refusal?, hreply, Option.map_some]

/-- The error of a command that cannot be started is not put below another. -/
theorem failure?_of_unstarted (disk : Disk)
    (hreply : setting.script command.line = .notFound) :
    setting.failure? disk stage = some (.launch command.line .notFound) := by
  rw [setting.failure?_of_command h, refusal?, hreply, Option.map_some]
  cases stage <;> rfl

end Command

/-- **A stage ends with its error.** -/
theorem step_error? (stage : Stage) {s : Session}
    (hs : s.env.getBytes? workspaceName = some setting.workspace) :
    (setting.step stage).error? s = setting.failure? s.disk stage := by
  cases stage with
  | interpreter =>
    change (detectPython setting.bench).error? s = _
    refine (error?_bind (fun answer t => ?_) s).trans (scripted_error? _ _ s)
    split <;> rfl
  | tools =>
    rw [failure?, ← scripted_error? _ _ { s with output := s.output ++ setting.notice .tools },
      ← error?_mapError, step, Run.error?, rebuild_eq, ← Run.error?]
    exact error?_bind (fun _ _ => rfl) _
  | seeding =>
    have hstep : setting.step .seeding s = (do
        let _ ← ConfDirectory.seed setting.workspace
        Run.say "End of PreBuild...".toList) s := by
      rw [step, Run.get_bind, hs, Option.getD_some]
    rw [failure?, ← (ConfDirectory.seed_diskOnly setting.workspace).error? s, Run.error?, hstep,
      ← Run.error?]
    exact error?_bind (fun _ _ => rfl) s
  | payload =>
    rw [failure?, ← scripted_error? _ _ s, ← error?_mapError, step, build, bind_assoc]
    exact error?_bind (fun _ _ => rfl) s

/-! ## The error of a build -/

theorem failure?_congr {disk disk' : Disk} {stage : Stage} (h : stage = .seeding → disk = disk') :
    setting.failure? disk stage = setting.failure? disk' stage := by
  cases stage with
  | seeding => rw [h rfl]
  | _ => rfl

/-- Stages one after the other end with the first error. -/
theorem perform_error? (disk : Disk) :
    ∀ {rest : List Stage} {s : Session}, rest.Nodup → (.seeding ∈ rest → s.disk = disk) →
      s.env.getBytes? workspaceName = some setting.workspace →
      (setting.perform rest).error? s = rest.findSome? (setting.failure? disk)
  | [], _, _, _, _ => rfl
  | stage :: rest, s, hnodup, hdisk, hs => by
    obtain ⟨hnew, hrest⟩ := List.nodup_cons.mp hnodup
    have herror := setting.step_error? stage hs
    rw [setting.failure?_congr fun h => hdisk (h ▸ List.mem_cons_self)] at herror
    rw [List.findSome?_cons, ← herror]
    rcases stage_ends stage hs with ⟨middle, -, hstep, hl⟩ | ⟨e, left, -, hstep, -⟩
    · have hmiddle : .seeding ∈ rest → middle.disk = disk := fun hm =>
        (hl.disk_of_mem hnew hm).trans (hdisk (List.mem_cons_of_mem _ hm))
      have hperform : (setting.perform (stage :: rest)).error? s =
          (setting.perform rest).error? middle := by
        rw [perform, Run.error?, Run.bind_of_ok hstep, ← Run.error?]
      rw [error?_ok hstep, hperform]
      exact perform_error? disk hrest hmiddle (hl.workspace.trans hs)
    · rw [error?_error hstep, perform, error?_error (Run.bind_of_error hstep _)]

/-- The session with the workspace named in its environment. -/
def pinned (s : Session) : Session :=
  { s with env := s.env.set workspaceName setting.workspace }

theorem pinned_workspace (s : Session) :
    (setting.pinned s).env.getBytes? workspaceName = some setting.workspace :=
  Overlay.getBytes?_set_self _ _ _

/-- **A build ends with the error of a stage that it reaches.** -/
theorem runs_error? (s : Session) {e : BuildError} : setting.runs.error? s = some e ↔
    ∃ stage ∈ setting.gone s, setting.failure? s.disk stage = some e := by
  have hnodup : (setting.plan s).Nodup := stages_nodup setting.bench setting.workspace s.disk
  have hfirst : setting.runs.error? s = (setting.plan s).findSome? (setting.failure? s.disk) := by
    rw [runs, Run.error?, run_eq_perform, ← Run.error?]
    exact setting.perform_error? s.disk hnodup (fun _ => rfl) (setting.pinned_workspace s)
  have passes_iff (stage : Stage) :
      setting.passes s.disk stage = true ↔ setting.failure? s.disk stage = none := by
    rw [← failure?_isNone, Option.isNone_iff_eq_none]
  rw [hfirst, List.findSome?_eq_some_iff]
  constructor
  · rintro ⟨before, stage, later, hplan, hfails, hbefore⟩
    refine ⟨stage, ?_, hfails⟩
    rw [gone, hplan, mem_reached _ (hplan ▸ hnodup), List.all_eq_true]
    exact fun earlier h => (passes_iff earlier).mpr (hbefore earlier h)
  · rintro ⟨stage, hgone, hfails⟩
    obtain ⟨before, later, hplan⟩ := List.append_of_mem ((reached_sublist _ _).subset hgone)
    refine ⟨before, stage, later, hplan, hfails, fun earlier h => ?_⟩
    rw [gone, hplan, mem_reached _ (hplan ▸ hnodup), List.all_eq_true] at hgone
    exact (passes_iff earlier).mp (hgone earlier h)

/-! ## What was launched -/

def launchedCommands (s : Session) : List Command :=
  ((setting.runs.after s).launches.drop s.launches.length).map Launch.command

theorem launchedCommands_eq (s : Session) :
    setting.launchedCommands s = (setting.gone s).filterMap setting.command? := by
  rw [launchedCommands, List.map_drop, runs_commands]
  exact List.drop_left' (List.length_map _)

theorem command?_injective {stage other : Stage} {command : Command}
    (h : setting.command? stage = some command) (ho : setting.command? other = some command) :
    stage = other := by
  have hnodup := commands_nodup setting.host setting.parameters setting.request
  simp only [List.nodup_cons, List.mem_cons, List.not_mem_nil, or_false, not_or] at hnodup
  obtain ⟨⟨hpr, hpp⟩, hrp, -⟩ := hnodup
  cases stage <;> cases other <;> simp_all [command?]

theorem mem_launchedCommands {s : Session} {stage : Stage} {command : Command}
    (h : setting.command? stage = some command) :
    command ∈ setting.launchedCommands s ↔ stage ∈ setting.gone s := by
  rw [launchedCommands_eq, List.mem_filterMap]
  constructor
  · rintro ⟨other, hgone, ho⟩
    rwa [setting.command?_injective h ho]
  · exact fun hgone => ⟨stage, hgone, h⟩

/-- The command of a stage that does not pass is the last one that is launched. -/
theorem getLast?_launchedCommands {s : Session} {stage : Stage} {command : Command}
    (hgone : stage ∈ setting.gone s) (hfails : setting.passes s.disk stage = false)
    (h : setting.command? stage = some command) :
    (setting.launchedCommands s).getLast? = some command := by
  have hlast : (setting.gone s).getLast? = some stage := getLast?_reached hfails hgone
  obtain ⟨front, hfront⟩ := List.getLast?_eq_some_iff.mp hlast
  rw [launchedCommands_eq, hfront, List.filterMap_append, List.filterMap_cons_some h,
    List.filterMap_nil]
  exact List.getLast?_concat

/-! ## What an error tells -/

/-- Seeding is started, once it is sure of the tools, and fails. -/
def SeedingFails (s : Session) (e : BuildError) : Prop :=
  ∃ made middle left, ensure setting.bench (setting.pinned s) = .ok made middle ∧
    ConfDirectory.seed setting.workspace middle = .error e left

/-- Seeding is reached if the stages before it succeed, and it finds the disk that they found. -/
theorem toolStages_leave (s : Session) :
    (.seeding ∈ setting.gone s ↔
      (setting.perform (toolStages setting.bench setting.workspace s.disk)).succeeds
        (setting.pinned s) = true) ∧
    ((setting.perform (toolStages setting.bench setting.workspace s.disk)).after
      (setting.pinned s)).disk = s.disk := by
  have hnodup : (toolStages setting.bench setting.workspace s.disk ++
    Stage.seeding :: [.payload]).Nodup := stages_nodup setting.bench setting.workspace s.disk
  obtain ⟨htools, -, hapart⟩ := List.nodup_append.mp hnodup
  have hout : .seeding ∉ toolStages setting.bench setting.workspace s.disk :=
    fun h => hapart _ h _ List.mem_cons_self rfl
  obtain ⟨hsucceeds, hleaves⟩ := perform_leaves s.disk htools (s := setting.pinned s)
    (fun _ => rfl) (setting.pinned_workspace s)
  constructor
  · rw [hsucceeds]
    exact mem_reached _ hnodup
  · rw [hleaves.disk, if_neg fun h => hout ((reached_sublist _ _).subset h)]
    rfl

theorem seedingFails_iff {s : Session} {e : BuildError} : setting.SeedingFails s e ↔
    .seeding ∈ setting.gone s ∧ setting.failure? s.disk .seeding = some e := by
  obtain ⟨hgone, hdisk⟩ := setting.toolStages_leave s
  have hfailure (middle : Session) (hm : middle.disk = s.disk) :
      setting.failure? s.disk .seeding = (ConfDirectory.seed setting.workspace).error? middle := by
    rw [(ConfDirectory.seed_diskOnly setting.workspace).error? middle, hm, failure?]
  have hensure : ensure setting.bench (setting.pinned s) = (do
      setting.perform (toolStages setting.bench setting.workspace s.disk)
      return !(makingStages setting.bench setting.workspace s.disk).isEmpty) (setting.pinned s) :=
    setting.ensure_eq_perform (setting.pinned_workspace s)
  rw [hgone]
  constructor
  · rintro ⟨made, middle, left, hok, hfails⟩
    rw [hensure] at hok
    obtain ⟨u, ready, hperform, hpure⟩ := Run.bind_eq_ok hok
    cases hpure
    rw [Run.after_ok hperform] at hdisk
    exact ⟨by rw [Run.succeeds, hperform], by rw [hfailure _ hdisk, error?_error hfails]⟩
  · rintro ⟨hok, hfails⟩
    cases h : setting.perform (toolStages setting.bench setting.workspace s.disk)
        (setting.pinned s) with
    | error e left =>
      rw [Run.succeeds, h] at hok
      cases hok
    | ok u middle =>
      rw [Run.after_ok h] at hdisk
      rw [hfailure middle hdisk] at hfails
      obtain ⟨left, hfails⟩ := error?_eq_some.mp hfails
      exact ⟨_, middle, left, hensure.trans (Run.bind_of_ok h _), hfails⟩

inductive Blames (s : Session) : BuildError → Prop
  | interpreter {status : Nat} : pythonCommand ∈ setting.launchedCommands s →
      setting.script pythonCommand.line = .exit status →
      Blames s (.commandFailed pythonCommand.line status)
  | tools {status : Nat} : rebuildCommand setting.host ∈ setting.launchedCommands s →
      setting.script (rebuildCommand setting.host).line = .exit status →
      Blames s (.toolsRebuild (.commandFailed (rebuildCommand setting.host).line status))
  | payload {status : Nat} {command : Command} :
      command = setting.request.command setting.host setting.parameters →
      command ∈ setting.launchedCommands s → setting.script command.line = .exit status →
      Blames s (.payloadBuild (.commandFailed command.line status))
  | unstarted {command : Command} : (setting.launchedCommands s).getLast? = some command →
      setting.script command.line = .notFound → Blames s (.launch command.line .notFound)
  | seeding {e : BuildError} : setting.SeedingFails s e → Blames s e

theorem blames_of_failure? {s : Session} {stage : Stage} {e : BuildError}
    (hgone : stage ∈ setting.gone s) (h : setting.failure? s.disk stage = some e) :
    setting.Blames s e := by
  have hfails : setting.passes s.disk stage = false := by
    rw [← failure?_isNone, h]
    rfl
  cases hc : setting.command? stage with
  | none =>
    cases stage with
    | seeding => exact .seeding (setting.seedingFails_iff.mpr ⟨hgone, h⟩)
    | interpreter | tools | payload => cases hc
  | some command =>
    cases hreply : setting.script command.line with
    | output text =>
      rw [setting.failure?_of_command hc, refusal?, hreply] at h
      cases h
    | exit status =>
      have hlaunched := (setting.mem_launchedCommands hc).mpr hgone
      rw [setting.failure?_of_exit hc s.disk hreply] at h
      obtain rfl := Option.some.inj h
      cases stage with
      | seeding => cases hc
      | interpreter =>
        obtain rfl := Option.some.inj hc
        exact .interpreter hlaunched hreply
      | tools =>
        obtain rfl := Option.some.inj hc
        exact .tools hlaunched hreply
      | payload =>
        obtain rfl := Option.some.inj hc
        exact .payload rfl hlaunched hreply
    | notFound =>
      rw [setting.failure?_of_unstarted hc s.disk hreply] at h
      obtain rfl := Option.some.inj h
      exact .unstarted (setting.getLast?_launchedCommands hgone hfails hc) hreply

theorem runs_error_iff (s : Session) {e : BuildError} :
    setting.runs.error? s = some e ↔ setting.Blames s e := by
  rw [runs_error?]
  constructor
  · rintro ⟨stage, hgone, h⟩
    exact setting.blames_of_failure? hgone h
  · intro h
    cases h with
    | interpreter hmem hreply => exact ⟨.interpreter, (setting.mem_launchedCommands rfl).mp hmem,
        setting.failure?_of_exit rfl s.disk hreply⟩
    | tools hmem hreply => exact ⟨.tools, (setting.mem_launchedCommands rfl).mp hmem,
        setting.failure?_of_exit rfl s.disk hreply⟩
    | payload hc hmem hreply =>
      subst hc
      exact ⟨.payload, (setting.mem_launchedCommands rfl).mp hmem,
        setting.failure?_of_exit rfl s.disk hreply⟩
    | unstarted hlast hreply =>
      have hmem := List.mem_of_getLast? hlast
      rw [launchedCommands_eq] at hmem
      obtain ⟨stage, hgone, hc⟩ := List.mem_filterMap.mp hmem
      exact ⟨stage, hgone, setting.failure?_of_unstarted hc s.disk hreply⟩
    | seeding hfails => exact ⟨.seeding, setting.seedingFails_iff.mp hfails⟩

end Setting

/-- **The error of a build tells what failed.** On every host and in every session, whatever a script
answers, whatever files a probe sees and whatever is on the disk, a build ends with an error exactly
if there is what the error blames: a command that was launched and has failed as the error says, or
seeding, which has failed with that very error. Errors about files come from seeding alone. -/
theorem run_blames (setting : Setting) (s : Session) :
    (∀ e, setting.runs.error? s = some e ↔ setting.Blames s e) ∧
    ∀ e, setting.SeedingFails s e ↔ setting.runs.error? s = some e ∧ e.IsOfFile := by
  refine ⟨fun e => setting.runs_error_iff s, fun e => ⟨fun h => ?_, fun h => ?_⟩⟩
  · obtain ⟨made, middle, left, -, hfails⟩ := id h
    exact ⟨(setting.runs_error_iff s).mpr (.seeding h),
      ConfDirectory.seed_throws setting.workspace middle e left hfails⟩
  · obtain ⟨h, action, path, cause, rfl⟩ := h
    cases (setting.runs_error_iff s).mp h with
    | seeding hfails => exact hfails

end Phases

end FirmwareBuild
