import FirmwareBuild.Build.Phases
import FirmwareBuild.Proofs.SeededFiles
import FirmwareBuild.Proofs.ToolSteps
import Mathlib.Data.List.Range

/-! # User files

A history is a sequence of calls, each with a host, an environment, a probe and a
script of its own; only the disk goes on from one to the next. With a script the
commands touch no file, so all that a call can do to a disk is to seed a workspace
(`Occasion.leaves_eq`). From the moments of seeding it follows that files survive
every history (`userFiles_survive`). -/

namespace FirmwareBuild

open Disk ConfDirectory

/-! ## Histories -/

inductive Call where
  | resolve
  | prepare (defaults : ToolDefaults) (root : Bytes)
  | ensure
  | seed (workspace : Bytes)
  | prebuild (workspace : Bytes)
  | build (parameters : BuildParameters) (request : Request)
  | run (parameters : BuildParameters) (request : Request) (workspace : Bytes)

def Call.step (bench : Workbench) : Call → Run Unit
  | .resolve => do let _ ← Toolchain.resolve bench
  | .prepare defaults root => do let _ ← Preparation.prepare bench defaults root
  | .ensure => do let _ ← PrebuiltTools.ensure bench
  | .seed workspace => do let _ ← ConfDirectory.seed workspace
  | .prebuild workspace => Phases.prebuild bench workspace
  | .build parameters request => Phases.build bench parameters request
  | .run parameters request workspace => Phases.run bench parameters request workspace

/-- A call and all that it meets besides the disk. -/
structure Occasion where
  call : Call
  host : Host
  script : Text → Reply
  probe : Probe
  env : Overlay

/-- The workspace that the first phase seeds, if it gets that far. -/
def prebuildSeeds? (bench : Workbench) (workspace : Bytes) (s : Session) : Option Bytes :=
  match PrebuiltTools.ensure bench s with
  | .ok _ ready => some ((ready.env.getBytes? workspaceName).getD workspace)
  | .error _ _ => none

namespace Occasion
variable (occasion : Occasion)

def bench : Workbench := ⟨occasion.host, .scripted occasion.script, occasion.probe⟩

def leaves (disk : Disk) : Disk :=
  ((occasion.call.step occasion.bench).after { env := occasion.env, disk }).disk

def seeds? (disk : Disk) : Option Bytes :=
  match occasion.call with
  | .resolve | .prepare _ _ | .ensure | .build _ _ => none
  | .seed workspace => some workspace
  | .prebuild workspace => prebuildSeeds? occasion.bench workspace { env := occasion.env, disk }
  | .run _ _ workspace => prebuildSeeds? occasion.bench workspace
      { env := occasion.env.set workspaceName workspace, disk }

theorem runner_keepsDisk (command : Command) :
    Run.Keeps Session.disk (occasion.bench.runner command) :=
  Runner.scripted_keeps (fun _ _ => rfl) _ _

theorem build_keepsDisk (parameters : BuildParameters) (request : Request) :
    Run.Keeps Session.disk (Phases.build occasion.bench parameters request) :=
  Run.Keeps.bind (Run.Keeps.mapError (occasion.runner_keepsDisk _) _) fun _ =>
    Run.Keeps.say (fun _ _ => rfl) _

/-- The first phase does to the disk what seeding its workspace does. -/
theorem prebuild_disk (workspace : Bytes) (s : Session) :
    ((Phases.prebuild occasion.bench workspace).after s).disk =
      ((prebuildSeeds? occasion.bench workspace s).map fun w => seeded w s.disk).getD s.disk := by
  have hensure := PrebuiltTools.ensure_keeps occasion.runner_keepsDisk (fun _ _ => rfl)
    (fun _ _ => rfl) s
  unfold prebuildSeeds? Phases.prebuild
  cases he : PrebuiltTools.ensure occasion.bench s with
  | error e left =>
    rw [Run.after_error he] at hensure
    rw [Run.after_error (Run.bind_of_error he _)]
    exact hensure
  | ok built ready =>
    rw [Run.after_ok he] at hensure
    rw [Run.after, Run.bind_of_ok he]
    change ((do
      let _ ← ConfDirectory.seed ((ready.env.getBytes? workspaceName).getD workspace)
      Run.say "End of PreBuild...".toList : Run Unit).after ready).disk = _
    have hsay : Run.Keeps Session.disk (Run.say "End of PreBuild...".toList) :=
      Run.Keeps.say (fun _ _ => rfl) _
    rw [Run.Keeps.after_bind fun _ => hsay, (seed_diskOnly _).after ready, hensure]
    rfl

/-- **All that a call can do to the disk is to seed a workspace.** -/
theorem leaves_eq (disk : Disk) :
    occasion.leaves disk = ((occasion.seeds? disk).map fun w => seeded w disk).getD disk := by
  have hrunner := occasion.runner_keepsDisk
  unfold leaves seeds?
  cases occasion.call with
  | resolve =>
    exact Run.Keeps.bind (Toolchain.resolve_reads hrunner).keeps (fun _ => Run.Keeps.pure _) _
  | prepare defaults root =>
    exact Run.Keeps.bind (Preparation.prepare_keeps hrunner (fun _ _ => rfl) defaults root)
      (fun _ => Run.Keeps.pure _) _
  | ensure =>
    exact Run.Keeps.bind (PrebuiltTools.ensure_keeps hrunner (fun _ _ => rfl) fun _ _ => rfl)
      (fun _ => Run.Keeps.pure _) _
  | build parameters request => exact occasion.build_keepsDisk parameters request _
  | seed workspace =>
    have hpure : Run.Keeps Session.disk (pure () : Run Unit) := Run.Keeps.pure ()
    refine (Run.Keeps.after_bind (fun _ => hpure) (ConfDirectory.seed workspace) _).trans ?_
    rw [(seed_diskOnly workspace).after]
    rfl
  | prebuild workspace => exact occasion.prebuild_disk workspace _
  | run parameters request workspace =>
    have hrest : Run.Keeps Session.disk (do
        Phases.build occasion.bench parameters request
        Phases.postbuild) := Run.Keeps.bind (occasion.build_keepsDisk parameters request)
      fun _ => Run.Keeps.bind (Run.Keeps.say (fun _ _ => rfl) _) fun _ =>
        Run.Keeps.say (fun _ _ => rfl) _
    have hpinned := occasion.prebuild_disk workspace
      { env := occasion.env.set workspaceName workspace, disk }
    rw [← Run.Keeps.after_bind fun _ => hrest] at hpinned
    exact hpinned

end Occasion

/-! ## Moments -/

/-- A moment of a history: which workspace is being seeded, and what is on the disk. -/
structure Moment where
  seeding : Option Bytes
  disk : Disk

/-- The moments of seeding: when the directory is there, and after each file. A copy counts as one
step. -/
def seedingMoments (workspace : Bytes) (disk : Disk) : List Moment :=
  (List.range (files.length + 1)).map fun count =>
    ⟨some workspace, seededFirst workspace count disk⟩

/-- The moments of a call: those of seeding, if it seeds, and its end. -/
def Occasion.moments (occasion : Occasion) (disk : Disk) : List Moment :=
  ((occasion.seeds? disk).map fun w => seedingMoments w disk).getD [] ++
    [⟨none, occasion.leaves disk⟩]

/-- The moments of a history behind its start. -/
def moments : List Occasion → Disk → List Moment
  | [], _ => []
  | occasion :: rest, disk => occasion.moments disk ++ moments rest (occasion.leaves disk)

structure FilesSurvive (history : List Occasion) (disk : Disk) : Prop where
  /-- A file that is there at one moment is there at every later one with the same data. -/
  kept : (⟨none, disk⟩ :: moments history disk : List Moment).Pairwise fun earlier later =>
    KeepsFiles earlier.disk later.disk
  /-- A file that appears is a configuration file of a workspace that is being seeded, and holds
  what its template held at the moment before. -/
  created : ∀ front earlier later back,
    (⟨none, disk⟩ :: moments history disk : List Moment) = front ++ earlier :: later :: back →
      ∀ location data, later.disk.fileAt? location = some data →
        earlier.disk.fileAt? location = none → ∃ w, later.seeding = some w ∧
          ∃ file ∈ files, later.disk.LeadsTo (filePath w file) location ∧
            earlier.disk.read (templatePath w file) = .ok data

def Moment.Follows (earlier later : Moment) : Prop :=
  Disk.Follows later.seeding earlier.disk later.disk

/-- The moments of seeding follow each other, and the first of them follows where it starts. -/
theorem seedingMoments_chain {start : Moment} (ht : start.disk.IsTree) (workspace : Bytes) :
    (start :: seedingMoments workspace start.disk).IsChain Moment.Follows := by
  refine List.isChain_cons.mpr ⟨fun first hfirst => ?_, ?_⟩
  · obtain rfl := Option.some.inj hfirst
    exact seededFirst_zero ht workspace
  · rw [seedingMoments, List.isChain_map, List.isChain_range_succ]
    intro count h
    exact seededFirst_succ (seededFirst_isTree ht workspace count (Nat.le_of_lt h)) h

/-- The last moment of seeding is the end of it. -/
theorem seedingMoments_getLast? (workspace : Bytes) (disk : Disk) :
    (seedingMoments workspace disk).getLast? = some ⟨some workspace, seeded workspace disk⟩ := by
  rw [seedingMoments, List.getLast?_map, List.getLast?_range, if_neg (Nat.succ_ne_zero _),
    ← seededFirst_length]
  rfl

/-- The moments of a history follow each other. -/
theorem moments_chain : ∀ (history : List Occasion) (start : Moment), start.disk.IsTree →
    (start :: moments history start.disk).IsChain Moment.Follows
  | [], start, _ => .singleton start
  | occasion :: rest, start, ht => by
    have hleaves := occasion.leaves_eq start.disk
    rw [moments, Occasion.moments]
    cases hs : occasion.seeds? start.disk with
    | none =>
      rw [hs] at hleaves
      have hsame : start.disk.SameFiles (occasion.leaves start.disk) := hleaves ▸ .refl ht
      exact .cons_cons (hsame.follows none) (moments_chain rest ⟨none, _⟩ hsame.tree)
    | some w =>
      rw [hs] at hleaves
      have htree := seeded_isTree ht w
      have hsame : (seeded w start.disk).SameFiles (occasion.leaves start.disk) :=
        hleaves ▸ .refl htree
      have hrest := moments_chain rest ⟨none, occasion.leaves start.disk⟩ hsame.tree
      change List.IsChain Moment.Follows ((start :: (seedingMoments w start.disk ++ [_])) ++ _)
      rw [← List.cons_append, List.append_assoc]
      refine List.isChain_append.mpr ⟨seedingMoments_chain ht w, hrest, ?_⟩
      intro last hlast next hnext
      rw [List.getLast?_cons, seedingMoments_getLast?] at hlast
      obtain rfl := Option.some.inj hlast
      obtain rfl := Option.some.inj hnext
      exact hsame.follows none

/-- **User files survive every history.** Whatever is called in whatever order, on whatever hosts,
with whatever answers to commands, and however far each call gets: no file of a tree goes or
changes, and those that appear are configuration files that were missing. -/
theorem userFiles_survive (history : List Occasion) {disk : Disk} (h : disk.IsTree) :
    FilesSurvive history disk := by
  have hchain := moments_chain history ⟨none, disk⟩ h
  refine ⟨?_, fun front earlier later back hsplit => ?_⟩
  · have hkept : (⟨none, disk⟩ :: moments history disk : List Moment).IsChain
        fun earlier later => KeepsFiles earlier.disk later.disk :=
      hchain.imp fun earlier later hfollows => hfollows.kept
    rw [← List.pairwise_map, ← List.isChain_iff_pairwise, List.isChain_map]
    exact hkept
  · exact (List.isChain_iff_forall_rel_of_append_cons_cons.mp hchain hsplit).created

/-- A workspace with its templates and with a configuration file that its user has changed. -/
def changedWorkspace : Disk where
  nodes := #[.directory 0 [(Utf8.encode "ws".toList, 1)],
    .directory 0 [(Utf8.encode "BaseTools".toList, 2), (Utf8.encode "Conf".toList, 3)],
    .directory 1 [(Utf8.encode "Conf".toList, 4)],
    .directory 1 [(Utf8.encode "target.txt".toList, 5)],
    .directory 2 [(Utf8.encode "target.template".toList, 6),
      (Utf8.encode "tools_def.template".toList, 7), (Utf8.encode "build_rule.template".toList, 8)],
    .file (Utf8.encode "TARGET = RELEASE".toList) plainMode,
    .file (Utf8.encode "TARGET = DEBUG".toList) plainMode,
    .file (Utf8.encode "IDENTIFIER = Default".toList) plainMode,
    .file (Utf8.encode "[Build.Common]".toList) plainMode]
  cwd := 0

/-- Seeding on any host, followed by a build whose command is missing. -/
def seedAndBuild (host : Host) : List Occasion :=
  [.seed (Utf8.encode "/ws".toList), .build {} {}].map fun call =>
    { call, host, script := fun _ => .notFound, probe := .ofDisk, env := .empty }

theorem changedWorkspace_survives :
    changedWorkspace.IsTree ∧ FilesSurvive (seedAndBuild .posix) changedWorkspace := by
  have htree : changedWorkspace.IsTree := ⟨by decide, by decide, by decide⟩
  exact ⟨htree, userFiles_survive (seedAndBuild .posix) htree⟩

end FirmwareBuild
