import FirmwareBuild.Build.Phases
import FirmwareBuild.Proofs.OverlayLookup
import FirmwareBuild.Proofs.Seeding
import FirmwareBuild.Proofs.ToolSteps

/-! # The order of a build

A build goes through at most four stages: the question to the interpreter, the
making of the tools, the seeding of the configuration directory and the payload.
Host and missing tools decide which of them there are before the first one starts,
and the build is these stages one after the other (`run_eq_perform`). A script
decides which of them pass. What was launched and printed and what became of the
disk then follows by going through the list up to the first stage that fails
(`perform_leaves`, `run_inOrder`). -/

namespace FirmwareBuild.Phases

open PrebuiltTools Runner

inductive Stage where
  | interpreter
  | tools
  | seeding
  | payload
  deriving DecidableEq, Repr

/-- The tools are made where one of them is missing in a workspace. -/
def makingStages (bench : Workbench) (workspace : Bytes) (disk : Disk) : List Stage :=
  if (missing bench disk ((Utf8.decode? workspace).getD ".".toList)).isEmpty then [] else [.tools]

def toolStages (bench : Workbench) (workspace : Bytes) (disk : Disk) : List Stage :=
  (if bench.host.isPosixLike then [.interpreter] else []) ++ makingStages bench workspace disk

/-- The stages a build in a workspace goes through if none of them fails. -/
def stages (bench : Workbench) (workspace : Bytes) (disk : Disk) : List Stage :=
  toolStages bench workspace disk ++ [.seeding, .payload]

/-- What is done up to and including the first stage that fails. -/
def reached (passes : Stage → Bool) : List Stage → List Stage
  | [] => []
  | stage :: rest => if passes stage then stage :: reached passes rest else [stage]

def line (text : Text) : Bytes := Utf8.encode text ++ Utf8.encode ['\n']

/-- What is to be built and where, and the answers of all commands. -/
structure Setting where
  host : Host
  script : Text → Reply
  probe : Probe
  parameters : BuildParameters
  request : Request
  workspace : Bytes

namespace Setting
variable (setting : Setting)

def bench : Workbench := ⟨setting.host, .scripted setting.script, setting.probe⟩

def command? : Stage → Option Command
  | .interpreter => some pythonCommand
  | .tools => some (rebuildCommand setting.host)
  | .seeding => none
  | .payload => some (setting.request.command setting.host setting.parameters)

/-- Whether a stage passes, where seeding starts on `disk`. -/
def passes (disk : Disk) : Stage → Bool
  | .interpreter => (answer? setting.script pythonCommand).isSome
  | .tools => (answer? setting.script (rebuildCommand setting.host)).isSome
  | .seeding => ConfDirectory.isSeedable setting.workspace disk
  | .payload => (answer? setting.script
      (setting.request.command setting.host setting.parameters)).isSome

def notice : Stage → Bytes
  | .interpreter =>
    match (answer? setting.script pythonCommand).bind readPython? with
    | some (interpreter, version) =>
      line ("Using ".toList ++ interpreter ++ ", Version ".toList ++ version)
    | none => []
  | .tools =>
    if setting.host = .windows then
      line "Could not find pre-built BaseTools binaries, try to rebuild BaseTools ...".toList
    else []
  | .seeding | .payload => []

/-- What is printed when a stage has passed. -/
def closing : Stage → Bytes
  | .interpreter | .tools => []
  | .seeding => line "End of PreBuild...".toList
  | .payload => line "End of Build...".toList ++ line "Start of PostBuild ...".toList ++
      line "End of PostBuild...".toList

def printed (disk : Disk) (stage : Stage) : Bytes :=
  setting.notice stage ++ if setting.passes disk stage then closing stage else []

def step : Stage → Run Unit
  | .interpreter => detectPython setting.bench
  | .tools => rebuild setting.bench
  | .seeding => do
    let root := ((← get).env.getBytes? workspaceName).getD setting.workspace
    let _ ← ConfDirectory.seed root
    Run.say "End of PreBuild...".toList
  | .payload => do
    build setting.bench setting.parameters setting.request
    postbuild

def perform : List Stage → Run Unit
  | [] => pure ()
  | stage :: rest => do
    setting.step stage
    perform rest

theorem perform_append (front back : List Stage) :
    setting.perform (front ++ back) = setting.perform front >>= fun _ => setting.perform back := by
  induction front with
  | nil => rfl
  | cons stage rest ih => simp only [List.cons_append, perform, ih, bind_assoc]

/-! ## A build is its stages -/

/-- The question to the interpreter leaves the disk and the name of the workspace as they are. -/
theorem detectPython_keepsPlace : Run.Keeps
    (fun s => (s.disk, s.env.getBytes? workspaceName)) (detectPython setting.bench) := by
  refine detectPython_keeps (Runner.scripted_keeps (fun _ _ => rfl) _) (fun _ _ => rfl)
    fun s interpreter => Prod.ext rfl ?_
  have hother : ∀ ignoreCase, Overlay.sameText ignoreCase pythonName workspaceName = false := by
    decide
  change (s.env.setText pythonName interpreter).getBytes? workspaceName = _
  rw [Overlay.setText, Overlay.getBytes?_set, hother]
  rfl

theorem makeMissing_eq {s : Session}
    (hs : s.env.getBytes? workspaceName = some setting.workspace) :
    makeMissing setting.bench s = (do
      setting.perform (makingStages setting.bench setting.workspace s.disk)
      return !(makingStages setting.bench setting.workspace s.disk).isEmpty) s := by
  have hread : s.env.get? workspaceName = Utf8.decode? setting.workspace := by
    rw [Overlay.get?, hs, Option.bind_some]
  unfold makeMissing makingStages
  change (if (missing setting.bench s.disk
    ((s.env.get? workspaceName).getD ".".toList)).isEmpty then _ else _ : Run Bool) s = _
  rw [hread]
  split
  · rfl
  · simp only [perform, step, bind_assoc, pure_bind]
    rfl

/-- Making sure of the tools is going through their stages. -/
theorem ensure_eq_perform {s : Session}
    (hs : s.env.getBytes? workspaceName = some setting.workspace) :
    ensure setting.bench s = (do
      setting.perform (toolStages setting.bench setting.workspace s.disk)
      return !(makingStages setting.bench setting.workspace s.disk).isEmpty) s := by
  rw [ensure_eq, toolStages]
  split
  · rw [List.singleton_append, perform, bind_assoc]
    change (detectPython setting.bench >>= _) s = (detectPython setting.bench >>= _) s
    cases hp : detectPython setting.bench s with
    | error e left => rw [Run.bind_of_error hp, Run.bind_of_error hp]
    | ok u left =>
      have hkeep := setting.detectPython_keepsPlace s
      rw [Run.after_ok hp] at hkeep
      have hdisk : left.disk = s.disk := congrArg Prod.fst hkeep
      have hname : left.env.getBytes? workspaceName = s.env.getBytes? workspaceName :=
        congrArg Prod.snd hkeep
      have hmake := setting.makeMissing_eq (hname.trans hs)
      rw [hdisk] at hmake
      rw [Run.bind_of_ok hp, Run.bind_of_ok hp]
      exact hmake
  · exact setting.makeMissing_eq hs

/-- **A build is its stages.** Which of them there are is known before the first one starts. -/
theorem run_eq_perform (s : Session) :
    run setting.bench setting.parameters setting.request setting.workspace s =
      setting.perform (stages setting.bench setting.workspace s.disk)
        { s with env := s.env.set workspaceName setting.workspace } := by
  have hensure := setting.ensure_eq_perform
    (s := { s with env := s.env.set workspaceName setting.workspace })
    (Overlay.getBytes?_set_self _ _ _)
  rw [run, Workspace.pin, Run.edit_bind, prebuild, bind_assoc, Run.bind_congr hensure, stages,
    perform_append]
  simp only [perform, step, bind_assoc, pure_bind, bind_pure_unit]

/-! ## What a stage leaves -/

/-- What some stages leave of a session, where seeding starts on `disk`. -/
structure Leaves (disk : Disk) (gone : List Stage) (s left : Session) : Prop where
  commands : left.launches.map Launch.command =
    s.launches.map Launch.command ++ gone.filterMap setting.command?
  output : left.output = s.output ++ gone.flatMap (setting.printed disk)
  disk : left.disk =
    if .seeding ∈ gone then ConfDirectory.seeded setting.workspace disk else s.disk
  workspace : left.env.getBytes? workspaceName = s.env.getBytes? workspaceName

variable {setting}

theorem Leaves.nothing (disk : Disk) (s : Session) : setting.Leaves disk [] s s :=
  ⟨by simp, by simp, by simp, rfl⟩

theorem Leaves.cons {disk : Disk} {stage : Stage} {gone : List Stage} {s middle left : Session}
    (h : setting.Leaves disk [stage] s middle) (hgone : setting.Leaves disk gone middle left) :
    setting.Leaves disk (stage :: gone) s left := by
  refine ⟨?_, ?_, ?_, hgone.workspace.trans h.workspace⟩
  · rw [hgone.commands, h.commands, List.append_assoc, ← List.filterMap_append]
    rfl
  · rw [hgone.output, h.output, List.append_assoc, ← List.flatMap_append]
    rfl
  · rw [hgone.disk, h.disk]
    by_cases hs : Stage.seeding = stage <;> by_cases hg : Stage.seeding ∈ gone <;> simp [hs, hg]

/-- What a stage leaves that is done by one command. -/
theorem Leaves.of_launch {disk : Disk} {stage : Stage} {command : Command} {env : Overlay}
    {s left : Session} (hc : setting.command? stage = some command)
    (hl : left.launches = s.launches ++ [⟨command, env⟩])
    (ho : left.output = s.output ++ setting.printed disk stage) (hd : left.disk = s.disk)
    (hw : left.env.getBytes? workspaceName = s.env.getBytes? workspaceName) :
    setting.Leaves disk [stage] s left := by
  have hother : Stage.seeding ∉ [stage] := by
    intro hs
    obtain rfl := List.mem_singleton.mp hs
    cases hc
  refine ⟨?_, ?_, ?_, hw⟩
  · rw [hl, List.map_append, List.filterMap_cons, hc]
    rfl
  · rw [ho, List.flatMap_singleton]
  · rw [if_neg hother, hd]

variable (setting) in
inductive Ends (stage : Stage) (s : Session) : Prop where
  | ok (left : Session) (passes : setting.passes s.disk stage = true)
      (step : setting.step stage s = .ok () left) (leaves : setting.Leaves s.disk [stage] s left)
  | error (e : BuildError) (left : Session) (passes : setting.passes s.disk stage = false)
      (step : setting.step stage s = .error e left)
      (leaves : setting.Leaves s.disk [stage] s left)

theorem interpreter_ends (s : Session) : setting.Ends .interpreter s := by
  cases ha : answer? setting.script pythonCommand with
  | none =>
    obtain ⟨e, he⟩ := scripted_error ha s
    refine .error e _ (by rw [passes, ha]; rfl) (Run.bind_of_error he _) ?_
    exact .of_launch rfl rfl (by simp [launched, printed, notice, passes, ha]) rfl rfl
  | some text =>
    have hok : setting.bench.runner pythonCommand s = .ok text (launched s pythonCommand) :=
      scripted_ok ha s
    have hkeep := setting.detectPython_keepsPlace s
    cases hp : readPython? text with
    | none =>
      have hstep : detectPython setting.bench s = .ok () { launched s pythonCommand with
          env := s.env.setText pythonName pythonFallback } := by
        rw [detectPython, Run.bind_of_ok hok, hp]
        rfl
      rw [Run.after_ok hstep] at hkeep
      refine .ok _ (by rw [passes, ha]; rfl) hstep ?_
      exact .of_launch rfl rfl (by simp [launched, printed, notice, closing, ha, hp]) rfl
        (congrArg Prod.snd hkeep)
    | some found =>
      have hstep : detectPython setting.bench s = .ok () { launched s pythonCommand with
          env := s.env.setText pythonName found.1
          output := s.output ++
            line ("Using ".toList ++ found.1 ++ ", Version ".toList ++ found.2) } := by
        rw [detectPython, Run.bind_of_ok hok, hp]
        rfl
      rw [Run.after_ok hstep] at hkeep
      refine .ok _ (by rw [passes, ha]; rfl) hstep ?_
      exact .of_launch rfl rfl (by simp [printed, notice, closing, ha, hp]) rfl
        (congrArg Prod.snd hkeep)

/-- Making the tools is its notice and then its command. -/
theorem rebuild_eq (s : Session) : rebuild setting.bench s =
    (do
      let _ ← Run.mapError (wrapFailure .toolsRebuild)
        (setting.bench.runner (rebuildCommand setting.host))
      pure ()) { s with output := s.output ++ setting.notice .tools } := by
  unfold rebuild notice
  change (if setting.host = .windows then _ else _ : Run Unit) s = _
  by_cases hw : setting.host = .windows
  · rw [if_pos hw, if_pos hw]
    rfl
  · rw [if_neg hw, if_neg hw, List.append_nil]
    rfl

theorem tools_ends (s : Session) : setting.Ends .tools s := by
  cases ha : answer? setting.script (rebuildCommand setting.host) with
  | none =>
    obtain ⟨e, he⟩ := scripted_error ha { s with output := s.output ++ setting.notice .tools }
    refine .error _ _ (by rw [passes, ha]; rfl)
      ((rebuild_eq s).trans (Run.bind_of_error (Run.mapError_error he _) _)) ?_
    exact .of_launch rfl rfl (by simp [launched, printed, passes, ha]) rfl rfl
  | some text =>
    have hok := scripted_ok ha { s with output := s.output ++ setting.notice .tools }
    refine .ok _ (by rw [passes, ha]; rfl)
      ((rebuild_eq s).trans (Run.bind_of_ok (Run.mapError_ok hok _) _)) ?_
    exact .of_launch rfl rfl (by simp [launched, printed, closing]) rfl rfl

theorem seeding_ends {s : Session}
    (hs : s.env.getBytes? workspaceName = some setting.workspace) :
    setting.Ends .seeding s := by
  have hdisk := ConfDirectory.seed_diskOnly setting.workspace
  have hstep : setting.step .seeding s = (do
      let _ ← ConfDirectory.seed setting.workspace
      Run.say "End of PreBuild...".toList) s := by
    rw [step, Run.get_bind, hs, Option.getD_some]
  have hpasses : setting.passes s.disk .seeding =
      (ConfDirectory.seed setting.workspace).succeeds s := (hdisk.succeeds s).symm
  have hafter := hdisk.after s
  rw [Run.succeeds] at hpasses
  cases h : ConfDirectory.seed setting.workspace s with
  | error e left =>
    rw [h] at hpasses
    rw [Run.after_error h] at hafter
    refine .error e left hpasses (hstep.trans (Run.bind_of_error h _)) ?_
    rw [hafter]
    exact ⟨by simp [command?], by simp [printed, notice, hpasses],
      by simp [ConfDirectory.seeded], rfl⟩
  | ok names left =>
    rw [h] at hpasses
    rw [Run.after_ok h] at hafter
    refine .ok _ hpasses (hstep.trans (Run.bind_of_ok h _)) ?_
    rw [hafter]
    exact ⟨by simp [command?], by simp [printed, notice, closing, line, hpasses],
      by simp [ConfDirectory.seeded], rfl⟩

theorem payload_ends (s : Session) : setting.Ends .payload s := by
  have hstep : setting.step .payload s = (do
      let _ ← Run.mapError (wrapFailure .payloadBuild)
        (setting.bench.runner (setting.request.command setting.host setting.parameters))
      Run.say "End of Build...".toList
      postbuild) s := by
    rw [step, build, bind_assoc]
    rfl
  cases ha : answer? setting.script (setting.request.command setting.host setting.parameters) with
  | none =>
    obtain ⟨e, he⟩ := scripted_error ha s
    refine .error _ _ (by rw [passes, ha]; rfl)
      (hstep.trans (Run.bind_of_error (Run.mapError_error he _) _)) ?_
    exact .of_launch rfl rfl (by simp [launched, printed, notice, passes, ha]) rfl rfl
  | some text =>
    refine .ok _ (by rw [passes, ha]; rfl)
      (hstep.trans (Run.bind_of_ok (Run.mapError_ok (scripted_ok ha s) _) _)) ?_
    have houtput : setting.printed s.disk .payload = closing .payload := by
      simp [printed, notice, passes, ha]
    refine .of_launch rfl rfl ?_ rfl rfl
    rw [houtput, closing, ← List.append_assoc, ← List.append_assoc]
    rfl

/-- A stage ends as it should where the environment names the workspace. -/
theorem stage_ends (stage : Stage) {s : Session}
    (hs : s.env.getBytes? workspaceName = some setting.workspace) : setting.Ends stage s := by
  cases stage with
  | interpreter => exact interpreter_ends s
  | tools => exact tools_ends s
  | seeding => exact seeding_ends hs
  | payload => exact payload_ends s

/-- Only seeding depends on the disk. -/
theorem passes_congr {disk disk' : Disk} {stage : Stage} (h : stage = .seeding → disk = disk') :
    setting.passes disk stage = setting.passes disk' stage := by
  cases stage with
  | seeding => rw [h rfl]
  | _ => rfl

theorem Leaves.congr {disk disk' : Disk} {stage : Stage} {s left : Session}
    (hl : setting.Leaves disk [stage] s left) (h : stage = .seeding → disk = disk') :
    setting.Leaves disk' [stage] s left := by
  refine ⟨hl.commands, ?_, ?_, hl.workspace⟩
  · rw [hl.output, List.flatMap_singleton, List.flatMap_singleton, printed, printed,
      passes_congr h]
  · rw [hl.disk]
    by_cases hs : Stage.seeding ∈ [stage]
    · rw [h (List.mem_singleton.mp hs).symm]
    · rw [if_neg hs, if_neg hs]

/-- A stage before seeding leaves the disk that seeding is to start on. -/
theorem Leaves.disk_of_mem {disk : Disk} {stage : Stage} {rest : List Stage} {s left : Session}
    (hl : setting.Leaves disk [stage] s left) (hnew : stage ∉ rest) (hm : .seeding ∈ rest) :
    left.disk = s.disk := by
  have hother : Stage.seeding ∉ [stage] := fun h => hnew (List.mem_singleton.mp h ▸ hm)
  rw [hl.disk, if_neg hother]

/-- **Stages one after the other.** They succeed if all of them pass, and leave what those up to
the first one that fails leave. -/
theorem perform_leaves (disk : Disk) :
    ∀ {rest : List Stage} {s : Session}, rest.Nodup → (.seeding ∈ rest → s.disk = disk) →
      s.env.getBytes? workspaceName = some setting.workspace →
      (setting.perform rest).succeeds s = rest.all (setting.passes disk) ∧
        setting.Leaves disk (reached (setting.passes disk) rest) s ((setting.perform rest).after s)
  | [], s, _, _, _ => ⟨rfl, Leaves.nothing disk s⟩
  | stage :: rest, s, hnodup, hdisk, hs => by
    obtain ⟨hnew, hrest⟩ := List.nodup_cons.mp hnodup
    have hstage : stage = .seeding → s.disk = disk := fun h => hdisk (h ▸ List.mem_cons_self)
    rw [List.all_cons, reached, Run.succeeds, Run.after]
    rcases stage_ends stage hs with ⟨middle, hp, hstep, hl⟩ | ⟨e, left, hp, hstep, hl⟩
    · have hl := hl.congr hstage
      rw [passes_congr hstage] at hp
      have hmiddle : .seeding ∈ rest → middle.disk = disk := fun hm =>
        (hl.disk_of_mem hnew hm).trans (hdisk (List.mem_cons_of_mem _ hm))
      obtain ⟨hsucceeds, hrest⟩ := perform_leaves disk hrest hmiddle (hl.workspace.trans hs)
      have hperform : setting.perform (stage :: rest) s = setting.perform rest middle :=
        Run.bind_of_ok hstep _
      rw [hperform, hp, Bool.true_and, if_pos rfl]
      exact ⟨hsucceeds, hl.cons hrest⟩
    · have hl := hl.congr hstage
      rw [passes_congr hstage] at hp
      have hperform : setting.perform (stage :: rest) s = .error e left :=
        Run.bind_of_error hstep _
      rw [hperform, hp, Bool.false_and, if_neg Bool.false_ne_true]
      exact ⟨rfl, hl⟩

end Setting

/-! ## The order of a build -/

theorem reached_sublist (passes : Stage → Bool) :
    ∀ plan, (reached passes plan).Sublist plan
  | [] => .slnil
  | stage :: rest => by
    rw [reached]
    split
    · exact (reached_sublist passes rest).cons_cons stage
    · exact (List.nil_sublist rest).cons_cons stage

/-- A stage is reached if all stages before it pass. -/
theorem mem_reached (passes : Stage → Bool) {stage : Stage} {later : List Stage} :
    ∀ {earlier : List Stage}, (earlier ++ stage :: later).Nodup →
      (stage ∈ reached passes (earlier ++ stage :: later) ↔ earlier.all passes = true)
  | [], _ => by
    rw [List.nil_append, reached]
    split <;> simp
  | first :: rest, hnodup => by
    obtain ⟨hnew, hrest⟩ := List.nodup_cons.mp hnodup
    have hne : stage ≠ first := fun h => hnew (by simp [h])
    have ih := mem_reached passes hrest
    rw [List.cons_append, reached, List.all_cons]
    cases passes first with
    | true => simpa [hne] using ih
    | false => simpa using hne

/-- A stage that does not pass is the last one that is reached. -/
theorem getLast?_reached {passes : Stage → Bool} {stage : Stage} (hfails : passes stage = false) :
    ∀ {plan : List Stage}, stage ∈ reached passes plan → (reached passes plan).getLast? = some stage
  | [], h => by cases h
  | first :: rest, h => by
    rw [reached] at h ⊢
    cases hfirst : passes first with
    | true =>
      rw [hfirst, if_pos rfl, List.mem_cons] at h
      have hlater : stage ∈ reached passes rest := by
        rcases h with rfl | h
        · rw [hfirst] at hfails
          cases hfails
        · exact h
      have ih := getLast?_reached hfails hlater
      rw [if_pos rfl, List.getLast?_cons, ih]
      rfl
    | false =>
      rw [hfirst, if_neg Bool.false_ne_true, List.mem_singleton] at h
      rw [if_neg Bool.false_ne_true, h]
      rfl

example : reached (· ≠ .tools) [.interpreter, .tools, .seeding, .payload] =
    [.interpreter, .tools] := by decide

theorem stages_sublist (bench : Workbench) (workspace : Bytes) (disk : Disk) :
    (stages bench workspace disk).Sublist [.interpreter, .tools, .seeding, .payload] := by
  unfold stages toolStages makingStages
  split <;> split <;> decide

theorem stages_nodup (bench : Workbench) (workspace : Bytes) (disk : Disk) :
    (stages bench workspace disk).Nodup :=
  (stages_sublist bench workspace disk).nodup (by decide)

/-- The commands of a build differ in what is done with their line and their output. -/
theorem commands_nodup (host : Host) (parameters : BuildParameters) (request : Request) :
    [pythonCommand, rebuildCommand host, request.command host parameters].Nodup := by
  have hflags : [(false, true), (false, false), (true, false)].Nodup := by decide
  refine List.Pairwise.of_map (S := (· ≠ ·)) (fun command => (command.echo, command.capture))
    (fun a b hne he => hne (he ▸ rfl)) ?_
  cases host <;> exact hflags

namespace Setting
variable (setting : Setting)

def plan (s : Session) : List Stage := stages setting.bench setting.workspace s.disk

/-- The stages that a build in a session reaches. -/
def gone (s : Session) : List Stage := reached (setting.passes s.disk) (setting.plan s)

/-- Only the last two stages print something for having passed. -/
theorem printed_reached (disk : Disk) :
    ∀ {tools : List Stage}, (∀ stage ∈ tools, closing stage = []) →
      (reached (setting.passes disk) (tools ++ [.seeding, .payload])).flatMap
          (setting.printed disk) =
        (reached (setting.passes disk) (tools ++ [.seeding, .payload])).flatMap setting.notice ++
        (if (tools ++ [Stage.seeding]).all (setting.passes disk) then closing .seeding else []) ++
        (if (tools ++ [Stage.seeding, .payload]).all (setting.passes disk) then closing .payload
          else [])
  | [], _ => by
    cases hs : setting.passes disk .seeding <;> cases hp : setting.passes disk .payload <;>
      simp [reached, printed, notice, hs, hp]
  | stage :: rest, hquiet => by
    have hstage : setting.printed disk stage = setting.notice stage := by
      rw [printed, hquiet stage List.mem_cons_self, ite_self, List.append_nil]
    have ih := printed_reached disk fun stage h => hquiet stage (List.mem_cons_of_mem _ h)
    rw [List.cons_append, reached]
    cases hp : setting.passes disk stage with
    | true => simp [hp, hstage, ih]
    | false => simp [hp, hstage]

theorem closing_toolStages (bench : Workbench) (workspace : Bytes) (disk : Disk) :
    ∀ stage ∈ toolStages bench workspace disk, closing stage = [] := by
  unfold toolStages makingStages
  split <;> split <;> simp [closing]

/-- What a build makes of a session, and whether it succeeds. -/
structure InOrder (setting : Setting) (s left : Session) (succeeds : Bool) : Prop where
  /-- A stage is reached if all stages before it pass. -/
  earlier : ∀ before stage later, setting.plan s = before ++ stage :: later →
    (stage ∈ setting.gone s ↔ before.all (setting.passes s.disk) = true)
  /-- The commands of the stages that are reached are launched, each once and in this order. -/
  launches : left.launches.map Launch.command =
    s.launches.map Launch.command ++ (setting.gone s).filterMap setting.command?
  ordered : ((setting.gone s).filterMap setting.command?).Sublist
    [pythonCommand, rebuildCommand setting.host,
      setting.request.command setting.host setting.parameters]
  once : ((setting.gone s).filterMap setting.command?).Nodup
  captured : pythonCommand.capture = true
  echoed : (setting.request.command setting.host setting.parameters).echo = true ∧
    (setting.request.command setting.host setting.parameters).capture = false
  /-- Where seeding is not reached the disk stays as it is, and nothing else changes it. -/
  disk : left.disk =
    if .seeding ∈ setting.gone s then ConfDirectory.seeded setting.workspace s.disk else s.disk
  result : succeeds = (setting.plan s).all (setting.passes s.disk)
  output : left.output = s.output ++ (setting.gone s).flatMap setting.notice ++
    (if (toolStages setting.bench setting.workspace s.disk ++ [Stage.seeding]).all
      (setting.passes s.disk) then line "End of PreBuild...".toList else []) ++
    (if (setting.plan s).all (setting.passes s.disk) then line "End of Build...".toList ++
      line "Start of PostBuild ...".toList ++ line "End of PostBuild...".toList else [])

/-- **A build goes through its stages in order and stops at the first that fails.** This holds on
every host and in every session, whatever a script answers, whatever files a probe sees and
whatever is on the disk. -/
theorem run_inOrder (setting : Setting) (s : Session) :
    setting.InOrder s
      ((run setting.bench setting.parameters setting.request setting.workspace).after s)
      ((run setting.bench setting.parameters setting.request setting.workspace).succeeds s) := by
  have hnodup := stages_nodup setting.bench setting.workspace s.disk
  obtain ⟨hsucceeds, hleaves⟩ := perform_leaves s.disk hnodup
    (s := { s with env := s.env.set workspaceName setting.workspace }) (fun _ => rfl)
    (Overlay.getBytes?_set_self _ _ _)
  rw [Run.succeeds, ← run_eq_perform, ← Run.succeeds] at hsucceeds
  rw [Run.after, ← run_eq_perform, ← Run.after] at hleaves
  have hgone : (setting.gone s).Sublist [.interpreter, .tools, .seeding, .payload] :=
    (reached_sublist _ _).trans (stages_sublist _ _ _)
  have hordered := hgone.filterMap setting.command?
  refine ⟨?_, hleaves.commands, hordered, hordered.nodup ?_, rfl, ⟨rfl, rfl⟩, hleaves.disk,
    hsucceeds, ?_⟩
  · intro before stage later hplan
    rw [gone, hplan]
    exact mem_reached _ (hplan ▸ hnodup)
  · exact commands_nodup _ _ _
  · have hprinted := setting.printed_reached s.disk
      (closing_toolStages setting.bench setting.workspace s.disk)
    have houtput := hleaves.output
    rw [stages, hprinted] at houtput
    rw [houtput, gone, plan, stages]
    simp only [List.append_assoc]
    rfl

end Setting

end FirmwareBuild.Phases
