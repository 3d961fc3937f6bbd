import FirmwareBuild.Proofs.HandedEnvironment
import FirmwareBuild.Proofs.SeededFiles

/-! # One workspace

A build has one workspace, and three parts of it go by its path: the check for the
tools, the seeding of the configuration directory, and every command, which reads
the path from its environment. Seeding and the commands get the octets of the path.
The check has to have a text, and where the path is none it looks for the tools in
the working directory (`run_in_workspace`). -/

namespace FirmwareBuild

/-! ## The tools of a workspace -/

namespace PrebuiltTools

/-- The way to a tool from a workspace, without the slashes that the workspace ends in. -/
def toolIn (workspace : Bytes) (tool : Text) : Bytes :=
  Text.dropEnd (· == Pathname.slash) workspace ++
    Utf8.encode ("/BaseTools/Source/C/bin/".toList ++ tool)

/-- The paths that a check for the tools asks about, in their order. -/
def askedPaths (host : Host) (workspace : Bytes) : List Text :=
  required.map (toolPath host ((Utf8.decode? workspace).getD ".".toList))

theorem toolPath_posixLike {host : Host} (h : host.isPosixLike = true) (workspace : Text)
    {tool : Text} (ht : tool ∈ required) : toolPath host workspace tool =
      Text.dropEnd (· == '/') workspace ++ ("/BaseTools/Source/C/bin/".toList ++ tool) := by
  have hbin : binDirectory host workspace =
      Text.dropEnd (· == '/') workspace ++ "/BaseTools/Source/C/bin".toList := by
    cases host
    case windows | unsupported => cases h
    all_goals rfl
  have hjoin : host.join (binDirectory host workspace) [tool ++ host.exeSuffix] =
      Text.dropEnd (· == '/') (binDirectory host workspace) ++
        '/' :: Text.dropEnds (· == '/') tool := by
    cases host
    case windows | unsupported => cases h
    all_goals simp [Host.join, Host.separator, Host.exeSuffix]
  have htool : ∀ tool ∈ required, Text.dropEnds (· == '/') tool = tool := by decide
  have hseparated :
      "/BaseTools/Source/C/bin/".toList = "/BaseTools/Source/C/bin".toList ++ ['/'] := by
    decide
  rw [toolPath, hjoin, hbin, Text.dropEnd_append (by decide) (by decide), htool tool ht,
    hseparated, List.append_assoc, List.append_assoc, List.singleton_append]

/-- The check looks for the tools in the workspace if its path is text, and in the working
directory otherwise. -/
theorem askedPaths_eq {host : Host} (h : host.isPosixLike = true) (workspace : Bytes) :
    (askedPaths host workspace).map Utf8.encode =
      required.map (toolIn (if Utf8.isText workspace then workspace else Pathname.here)) := by
  have hread : Utf8.encode ((Utf8.decode? workspace).getD ".".toList) =
      if Utf8.isText workspace then workspace else Pathname.here := by
    rw [Utf8.decode?]
    split
    · rename_i ht
      exact Utf8.encode_of_isText ht
    · decide
  rw [askedPaths, List.map_map]
  refine List.map_congr_left fun tool ht => ?_
  rw [Function.comp_apply, toolPath_posixLike h _ ht, Utf8.encode_append,
    Utf8.encode_dropEnd (by decide), hread, toolIn]
  rfl

end PrebuiltTools

/-! ## What seeding asks of the disk -/

namespace ConfDirectory

/-- Something to be done with paths, one request after the other. -/
inductive Errand where
  | done (copied : List Text)
  | makeDirectories (path : Bytes) (next : Errand)
  | look (path : Bytes) (next : Bool → Errand)
  | copy (source target : Bytes) (next : Errand)

namespace Errand

def perform : Errand → Run (List Text)
  | done copied => return copied
  | makeDirectories path next => do
    Run.onDisk .create path (Disk.makeDirectories path)
    next.perform
  | look path next => do (next ((← get).disk.pathExists path)).perform
  | copy source target next => do
    Run.onDisk .copy source (Disk.copy source target)
    next.perform

/-- Every path that is named on the way, whatever the answers are, has a property. -/
def Names (p : Bytes → Prop) : Errand → Prop
  | done _ => True
  | makeDirectories path next => p path ∧ next.Names p
  | look path next => p path ∧ ∀ there, (next there).Names p
  | copy source target next => p source ∧ p target ∧ next.Names p

end Errand

/-- Copying the templates of the files that are missing, where some were copied before. -/
def copyErrand (workspace : Bytes) (copied : List Text) : List Text → Errand
  | [] => .done copied
  | file :: rest => .look (filePath workspace file) fun there =>
    if there then copyErrand workspace copied rest
    else .copy (templatePath workspace file) (filePath workspace file)
      (copyErrand workspace (copied ++ [file]) rest)

/-- Making the configuration directory of a workspace complete. -/
def errand (workspace : Bytes) : Errand :=
  .makeDirectories (directory workspace) (copyErrand workspace [] files)

theorem copyErrand_perform (workspace : Bytes) (copied files : List Text) :
    (copyErrand workspace copied files).perform = (do
      let names ← copyMissing workspace files
      return copied ++ names) := by
  induction files generalizing copied with
  | nil => simp [copyErrand, copyMissing, Errand.perform]
  | cons file rest ih =>
    rw [copyErrand, Errand.perform, copyMissing, bind_assoc]
    refine congrArg (get >>= ·) (funext fun s => ?_)
    split
    · exact ih copied
    · simp [Errand.perform, ih]

/-- **Seeding does its errand.** -/
theorem seed_eq_errand (workspace : Bytes) : seed workspace = (errand workspace).perform := by
  rw [errand, Errand.perform, copyErrand_perform, seed]
  simp

def IsBelow (workspace path : Bytes) : Prop :=
  ∃ way, path = Pathname.join workspace way ∧ Pathname.isAbsolute way = false ∧
    Pathname.names way ≠ [] ∧ Pathname.up ∉ Pathname.names way

theorem filePath_isBelow (workspace : Bytes) {file : Text} (hf : file ∈ files) :
    IsBelow workspace (filePath workspace file) := by
  have hrelative : ∀ file ∈ files,
      Pathname.isAbsolute (Utf8.encode (file ++ ".txt".toList)) = false := by decide
  refine ⟨_, Pathname.join_join (by decide) (by decide) (by decide) (hrelative file hf) workspace,
    ?_⟩
  revert file
  decide

theorem templatePath_isBelow (workspace : Bytes) {file : Text} (hf : file ∈ files) :
    IsBelow workspace (templatePath workspace file) := by
  refine ⟨_, rfl, ?_⟩
  revert file
  decide

theorem copyErrand_names (workspace : Bytes) (copied : List Text) {files : List Text}
    (h : ∀ file ∈ files, file ∈ ConfDirectory.files) :
    (copyErrand workspace copied files).Names (IsBelow workspace) := by
  induction files generalizing copied with
  | nil => trivial
  | cons file rest ih =>
    have hfile := h file List.mem_cons_self
    have hrest (copied : List Text) := ih copied fun other ho => h other (List.mem_cons_of_mem _ ho)
    refine ⟨filePath_isBelow workspace hfile, fun there => ?_⟩
    cases there with
    | true => exact hrest copied
    | false => exact ⟨templatePath_isBelow workspace hfile, filePath_isBelow workspace hfile,
        hrest (copied ++ [file])⟩

theorem errand_names (workspace : Bytes) : (errand workspace).Names (IsBelow workspace) :=
  ⟨⟨Utf8.encode name, rfl, by decide⟩, copyErrand_names workspace [] fun _ h => h⟩

end ConfDirectory

/-! ## A build in one workspace -/

namespace Phases
open PrebuiltTools ConfDirectory

namespace Setting
variable (setting : Setting)

def runs : Run Unit := run setting.bench setting.parameters setting.request setting.workspace

def withProbe (probe : Probe) : Setting := { setting with probe }

theorem perform_withProbe (probe : Probe) (plan : List Stage) :
    (setting.withProbe probe).perform plan = setting.perform plan := by
  induction plan with
  | nil => rfl
  | cons stage rest ih =>
    have hstep : (setting.withProbe probe).step stage = setting.step stage := by
      cases stage <;> rfl
    rw [perform, perform, hstep, ih]

/-- Nothing but the asked paths is of interest to a build in what the probe sees. -/
theorem runs_congr_probe {probe : Probe} {s : Session}
    (h : ∀ path ∈ askedPaths setting.host setting.workspace,
      probe.pathExists s.disk path = setting.probe.pathExists s.disk path) :
    (setting.withProbe probe).runs s = setting.runs s := by
  have hmissing : missing (setting.withProbe probe).bench s.disk
      ((Utf8.decode? setting.workspace).getD ".".toList) = missing setting.bench s.disk
        ((Utf8.decode? setting.workspace).getD ".".toList) := by
    refine List.filter_congr fun tool ht => congrArg not ?_
    exact h _ (List.mem_map_of_mem ht)
  have hstages : stages (setting.withProbe probe).bench setting.workspace s.disk =
      stages setting.bench setting.workspace s.disk := by
    rw [stages, stages, toolStages, toolStages, makingStages, makingStages, hmissing]
    rfl
  rw [runs, runs, run_eq_perform, run_eq_perform, perform_withProbe]
  exact congrArg (fun plan => setting.perform plan _) hstages

/-- Each of the asked paths counts: the tools are made where one of them leads nowhere. -/
theorem mem_toolStages (disk : Disk) :
    .tools ∈ toolStages setting.bench setting.workspace disk ↔
      ∃ path ∈ askedPaths setting.host setting.workspace,
        setting.probe.pathExists disk path = false := by
  have hmissing : missing setting.bench disk ((Utf8.decode? setting.workspace).getD ".".toList) ≠
      [] ↔ ∃ path ∈ askedPaths setting.host setting.workspace,
        setting.probe.pathExists disk path = false := by
    constructor
    · intro hne
      obtain ⟨tool, hmem⟩ := List.exists_mem_of_ne_nil _ hne
      obtain ⟨ht, habsent⟩ := List.mem_filter.mp hmem
      exact ⟨_, List.mem_map_of_mem ht, by simpa [bench] using habsent⟩
    · rintro ⟨path, hp, habsent⟩
      obtain ⟨tool, ht, rfl⟩ := List.mem_map.mp hp
      exact List.ne_nil_of_mem (List.mem_filter.mpr ⟨ht, by simpa [bench] using habsent⟩)
  have hinterpreter : Stage.tools ∉ if setting.bench.host.isPosixLike then [Stage.interpreter]
      else [] := by
    split <;> decide
  rw [← hmissing, toolStages, List.mem_append, or_iff_right hinterpreter, makingStages]
  simp

structure OneWorkspace (s : Session) : Prop where
  /-- The probe counts only for what it says of the asked paths. -/
  asks : ∀ probe : Probe, (∀ path ∈ askedPaths setting.host setting.workspace,
    probe.pathExists s.disk path = setting.probe.pathExists s.disk path) →
      (setting.withProbe probe).runs s = setting.runs s
  /-- Each of them counts: one that is missing is enough for the tools to be made. -/
  counts : .tools ∈ toolStages setting.bench setting.workspace s.disk ↔
    ∃ path ∈ askedPaths setting.host setting.workspace,
      setting.probe.pathExists s.disk path = false
  /-- Those are the tools of the workspace if its path is text, and of the working directory
  otherwise. -/
  asked : (askedPaths setting.host setting.workspace).map Utf8.encode = required.map
    (toolIn (if Utf8.isText setting.workspace then setting.workspace else Pathname.here))
  /-- Seeding does its errand in the workspace. -/
  seeds : setting.runs s = (do
    setting.perform (toolStages setting.bench setting.workspace s.disk)
    let _ ← (errand setting.workspace).perform
    Run.say "End of PreBuild...".toList
    setting.perform [.payload]) { s with env := s.env.set workspaceName setting.workspace }
  /-- All paths of the errand lead downwards from there. -/
  below : (errand setting.workspace).Names (IsBelow setting.workspace)
  /-- Every command gets the octets of the path. -/
  hands : ∃ launched, (setting.runs.after s).launches = s.launches ++ launched ∧
    ∀ launch ∈ launched, launch.env.getBytes? workspaceName = some setting.workspace

theorem runs_seeds (s : Session) : setting.runs s = (do
    setting.perform (toolStages setting.bench setting.workspace s.disk)
    let _ ← (errand setting.workspace).perform
    Run.say "End of PreBuild...".toList
    setting.perform [.payload]) { s with env := s.env.set workspaceName setting.workspace } := by
  have hnodup : (toolStages setting.bench setting.workspace s.disk).Nodup :=
    (List.sublist_append_left _ _).nodup (stages_nodup setting.bench setting.workspace s.disk)
  have hpinned : (s.env.set workspaceName setting.workspace).getBytes? workspaceName =
      some setting.workspace := Overlay.getBytes?_set_self _ _ _
  obtain ⟨-, hleaves⟩ := perform_leaves s.disk hnodup (fun _ => rfl)
    (s := { s with env := s.env.set workspaceName setting.workspace }) hpinned
  rw [runs, run_eq_perform, stages, perform_append]
  cases htools : setting.perform (toolStages setting.bench setting.workspace s.disk)
      { s with env := s.env.set workspaceName setting.workspace } with
  | error e left => rw [Run.bind_of_error htools, Run.bind_of_error htools]
  | ok u left =>
    -- the stages before seeding leave the name of the workspace
    rw [Run.after_ok htools] at hleaves
    have hname : left.env.getBytes? workspaceName = some setting.workspace :=
      hleaves.workspace.trans hpinned
    rw [Run.bind_of_ok htools, Run.bind_of_ok htools, ← seed_eq_errand]
    simp only [perform, step, bind_assoc]
    rw [Run.get_bind, hname, Option.getD_some]

theorem runs_hands (s : Session) :
    ∃ launched, (setting.runs.after s).launches = s.launches ++ launched ∧
      ∀ launch ∈ launched, launch.env.getBytes? workspaceName = some setting.workspace := by
  have hrun : setting.runs.after s =
      (setting.perform (stages setting.bench setting.workspace s.disk)).after
        { s with env := s.env.set workspaceName setting.workspace } := by
    rw [Run.after, runs, setting.run_eq_perform s, ← Run.after]
  obtain ⟨⟨later, -, hlaunches⟩, hchange, -, -⟩ := setting.stages_handOn
    (s.env.set workspaceName setting.workspace)
    (s := { s with env := s.env.set workspaceName setting.workspace }) rfl s.disk
  have hshown : (s.env.set workspaceName setting.workspace).getBytes? workspaceName =
      some setting.workspace := Overlay.getBytes?_set_self _ _ _
  -- the name of the interpreter is not that of the workspace
  have hgiven : (setting.given (s.env.set workspaceName setting.workspace)).getBytes?
      workspaceName = some setting.workspace := by
    rw [hchange.others workspaceName, hshown]
    cases (s.env.set workspaceName setting.workspace).ignoreCase <;> decide
  refine ⟨setting.question (s.env.set workspaceName setting.workspace) ++
    Run.launchesWith (setting.given (s.env.set workspaceName setting.workspace)) later, ?_, ?_⟩
  · rw [hrun, hlaunches, List.append_assoc]
  · intro launch hl
    rcases List.mem_append.mp hl with hl | hl
    · rw [question] at hl
      split at hl
      · rw [List.mem_singleton.mp hl]
        exact hshown
      · cases hl
    · obtain ⟨command, -, rfl⟩ := List.mem_map.mp hl
      exact hgiven

/-- The commands of a build are those of the stages that it reaches. -/
theorem runs_commands (s : Session) : (setting.runs.after s).launches.map Launch.command =
    s.launches.map Launch.command ++ (setting.gone s).filterMap setting.command? := by
  have hleaves := (setting.perform_leaves s.disk
    (stages_nodup setting.bench setting.workspace s.disk) (fun _ => rfl)
    (s := { s with env := s.env.set workspaceName setting.workspace })
    (Overlay.getBytes?_set_self _ _ _)).2
  rw [Run.after, runs, setting.run_eq_perform s, ← Run.after]
  exact hleaves.commands

end Setting

/-- **A build has one workspace.** It seeds the workspace that it was given and hands its octets to
every command. It looks for the tools there too, as far as the path is text. -/
theorem run_in_workspace (setting : Setting) (hposix : setting.host.isPosixLike = true)
    (s : Session) : setting.OneWorkspace s :=
  { asks := fun _ => setting.runs_congr_probe
    counts := setting.mem_toolStages s.disk
    asked := askedPaths_eq hposix setting.workspace
    seeds := setting.runs_seeds s
    below := errand_names setting.workspace
    hands := setting.runs_hands s }

/-- A workspace whose name is no text, on a host where everything succeeds. -/
def unreadable : Setting where
  host := .posix
  script := fun _ => .output []
  probe := .ofLists [] []
  parameters := {}
  request := {}
  workspace := Utf8.encode "/w".toList ++ [0xE9]

theorem unreadable_in_workspace :
    unreadable.host.isPosixLike = true ∧ unreadable.OneWorkspace default :=
  ⟨rfl, run_in_workspace unreadable rfl default⟩

def toolsHere : Probe :=
  .ofLists (required.map fun tool => ("./BaseTools/Source/C/bin/".toList ++ tool, [])) []

/-- What two probes see in that workspace is the same, and still they make a difference for the
build in it. -/
theorem unreadable_asks_elsewhere :
    (∀ disk path, (∃ tool ∈ required, Utf8.encode path = toolIn unreadable.workspace tool) →
      toolsHere.pathExists disk path = unreadable.probe.pathExists disk path) ∧
    ((unreadable.withProbe toolsHere).runs.after default).launches ≠
      (unreadable.runs.after default).launches := by
  constructor
  · rintro disk path ⟨tool, ht, he⟩
    -- no text has the octets of such a path
    have hbroken : ∀ tool ∈ required, Utf8.decode? (toolIn unreadable.workspace tool) = none := by
      decide +kernel
    have hread := hbroken tool ht
    rw [← he, Utf8.decode?_encode] at hread
    cases hread
  · intro h
    have hcommands := congrArg (List.map Launch.command) h
    have hhere : (unreadable.withProbe toolsHere).plan default =
        [.interpreter, .seeding, .payload] := by decide +kernel
    have hnowhere : unreadable.plan default = [.interpreter, .tools, .seeding, .payload] := by
      decide +kernel
    rw [Setting.runs_commands, Setting.runs_commands, Setting.gone, Setting.gone, hhere,
      hnowhere] at hcommands
    have hmade : rebuildCommand .posix ∈ (reached (unreadable.passes (default : Session).disk)
        [.interpreter, .tools, .seeding, .payload]).filterMap unreadable.command? :=
      List.mem_cons_of_mem _ List.mem_cons_self
    have hunmade : rebuildCommand .posix ∉
        [Stage.interpreter, .seeding, .payload].filterMap unreadable.command? := by
      decide +kernel
    rw [← List.append_cancel_left hcommands] at hmade
    exact hunmade (((reached_sublist _ _).filterMap _).subset hmade)

end Phases

end FirmwareBuild
