import FirmwareBuild.FrontEnd
import FirmwareBuild.Proofs.PhaseOrder

/-! # The environment that commands get

The environment of a build comes about in two ways: one shows it as a script, the
other builds with it. Both prepare the overlay and both name the workspace in it,
at different places. What is shown is what the interpreter is asked with; the
answer can change the one variable that names the interpreter, and all commands
behind it get one environment (`run_hands_shown`). -/

namespace FirmwareBuild

/-! ## Steps that only hand their overlay on -/

namespace Run
variable {α β : Type} {env : Overlay} {commands : List Command}

/-- Where the overlay is `env`, a step launches some of the commands with it, in their order, and
leaves it as it is. -/
def Hands (env : Overlay) (commands : List Command) (step : Run α) : Prop :=
  ∀ s, s.env = env → (step.after s).env = env ∧ ∃ launched, launched.Sublist commands ∧
    (step.after s).launches = s.launches ++ launchesWith env launched

theorem Hands.of_keeps {step : Run α} (h : Keeps (fun s => (s.env, s.launches)) step) :
    Hands env [] step := by
  intro s hs
  have hkept := h s
  have henv : (step.after s).env = s.env := congrArg Prod.fst hkept
  have hlaunches : (step.after s).launches = s.launches := congrArg Prod.snd hkept
  exact ⟨henv.trans hs, [], .slnil, by simp [hlaunches, launchesWith]⟩

theorem Hands.bind {later : List Command} {x : Run α} {f : α → Run β} (hx : Hands env commands x)
    (hf : ∀ a, Hands env later (f a)) : Hands env (commands ++ later) (x >>= f) := by
  intro s hs
  obtain ⟨henv, launched, hsub, hl⟩ := hx s hs
  cases h : x s with
  | error e left =>
    rw [after_error h] at henv hl
    rw [after_error (bind_of_error h f)]
    exact ⟨henv, launched, hsub.trans (List.sublist_append_left _ _), hl⟩
  | ok a middle =>
    rw [after_ok h] at henv hl
    obtain ⟨henv', launched', hsub', hl'⟩ := hf a middle henv
    rw [after_bind_of_ok h]
    refine ⟨henv', launched ++ launched', hsub.append hsub', ?_⟩
    rw [hl', hl, launchesWith, launchesWith, launchesWith, List.map_append, List.append_assoc]

theorem Hands.mapError {step : Run α} (h : Hands env commands step)
    (f : BuildError → BuildError) : Hands env commands (Run.mapError f step) := by
  intro s hs
  have hafter : (Run.mapError f step).after s = step.after s := by
    cases hstep : step s with
    | ok a left => rw [after_ok hstep, after_ok (mapError_ok hstep f)]
    | error e left => rw [after_error hstep, after_error (mapError_error hstep f)]
  rw [hafter]
  exact h s hs

theorem Hands.say (line : Text) : Hands env [] (Run.say line) :=
  .of_keeps (Keeps.say (fun _ _ => rfl) line)

end Run

/-- A runner that follows a script hands the overlay to the one command that it is given. -/
theorem Runner.scripted_hands (script : Text → Reply) (env : Overlay) (command : Command) :
    Run.Hands env [command] (scripted script command) := by
  intro s hs
  have hafter : (scripted script command).after s = launched s command := by
    cases ha : answer? script command with
    | some text => exact Run.after_ok (scripted_ok ha s)
    | none =>
      obtain ⟨e, he⟩ := scripted_error ha s
      exact Run.after_error he
  rw [hafter]
  refine ⟨hs, [command], .refl _, ?_⟩
  rw [launched, hs]
  rfl

/-! ## One variable that may change -/

/-- All that may change is the variable called `name`: it is written where it is stored or, if it
is not there, under its plain spelling. -/
structure Overlay.ChangedAtMost (name : Text) (before after : Overlay) : Prop where
  rule : after.ignoreCase = before.ignoreCase
  kept : before.names.Sublist after.names
  values : ∀ k, k ≠ before.target name → after.lookup k = before.lookup k
  others : ∀ other, sameText before.ignoreCase name other = false →
    after.getBytes? other = before.getBytes? other

theorem Overlay.ChangedAtMost.refl (name : Text) (env : Overlay) : ChangedAtMost name env env :=
  ⟨rfl, .refl _, fun _ _ => rfl, fun _ _ => rfl⟩

theorem Overlay.ChangedAtMost.set (env : Overlay) (name : Text) (value : Bytes) :
    ChangedAtMost name env (env.set name value) := by
  refine ⟨rfl, names_sublist_set env name value, fun k hk => ?_, fun other ho => ?_⟩
  · rw [lookup_set, if_neg hk]
  · rw [getBytes?_set, ho]
    rfl

/-! ## What is shown and what a build hands on -/

namespace Preparation

/-- Preparation, after which the overlay names the workspace: this is how the environment comes
about that is shown as a script. -/
def environment (bench : Workbench) (defaults : ToolDefaults) (root : Bytes) : Run Toolchain := do
  let toolchain ← prepare bench defaults root
  Workspace.pin root
  return toolchain

/-- What the front end shows are the changes that this makes to the inherited overlay. -/
theorem showEnvironment_eq (front : FrontEnd) (requested : Option Bytes) (shell : ShellKind) :
    front.showEnvironment requested shell = (do
      let root ← front.enterWorkspace requested
      let settings ← Settings.load root
      let inherited := (← get).env
      let toolchain ← environment front.bench settings.tools root
      Run.say (shell.comment ++ ' ' :: toolchain.identifier ++ ' ' :: toolchain.version)
      (FrontEnd.assignments shell ((← get).env.changesSince inherited)).forM Run.say
      return 0) := by
  simp only [FrontEnd.showEnvironment, environment, bind_assoc, pure_bind]

end Preparation

namespace Phases
open PrebuiltTools Runner

def interpreterOf (answer : Text) : Text :=
  ((readPython? answer).map Prod.fst).getD pythonFallback

namespace Setting
variable (setting : Setting)

def question (env : Overlay) : List Launch :=
  if setting.host.isPosixLike then [⟨pythonCommand, env⟩] else []

def interpreterAnswers : Bool :=
  setting.host.isPosixLike && (answer? setting.script pythonCommand).isSome

/-- What a build makes of the record of launches and of the overlay, where `shown` is the
environment that is shown and `given` the one that it goes on with. -/
structure HandsOn (shown given : Overlay) (s left : Session) : Prop where
  /-- The interpreter gets what is shown, and all commands behind it get one environment. -/
  launches : ∃ later, later.Sublist
      [rebuildCommand setting.host, setting.request.command setting.host setting.parameters] ∧
    left.launches = s.launches ++ setting.question shown ++ Run.launchesWith given later
  change : Overlay.ChangedAtMost pythonName shown given
  unasked : setting.host.isPosixLike = false → given = shown
  /-- A build leaves what it went on with, also where it fails. -/
  leaves : left.env = if setting.interpreterAnswers then given else shown

/-- Only the question to the interpreter leads to a change of the overlay. -/
theorem step_hands (env : Overlay) {stage : Stage} (h : stage ≠ .interpreter) :
    Run.Hands env (setting.command? stage).toList (setting.step stage) := by
  cases stage with
  | interpreter => exact absurd rfl h
  | tools =>
    have hcommand : Run.Hands env [rebuildCommand setting.host] (do
        let _ ← Run.mapError (wrapFailure .toolsRebuild)
          (setting.bench.runner (rebuildCommand setting.host))
        pure () : Run Unit) :=
      Run.Hands.bind ((scripted_hands setting.script env _).mapError _)
        fun _ => .of_keeps (Run.Keeps.pure _)
    change Run.Hands env [rebuildCommand setting.host] (rebuild setting.bench)
    unfold rebuild
    split
    · exact Run.Hands.bind (.say _) fun _ => hcommand
    · exact hcommand
  | seeding =>
    have hget : Run.Hands env [] (get : Run Session) := .of_keeps Run.Keeps.get
    refine hget.bind fun s => ?_
    have hseed (workspace : Bytes) : Run.Hands env [] (ConfDirectory.seed workspace) := by
      refine .of_keeps fun s => ?_
      rw [(ConfDirectory.seed_diskOnly _).after s]
    exact (hseed _).bind fun _ => .say _
  | payload =>
    have hpost : Run.Hands env [] postbuild := Run.Hands.bind (.say _) fun _ => .say _
    have hcommand := scripted_hands setting.script env
      (setting.request.command setting.host setting.parameters)
    exact (Run.Hands.bind (hcommand.mapError (wrapFailure .payloadBuild)) fun _ =>
      .say "End of Build...".toList).bind fun _ => hpost

/-- Stages behind that question hand on one overlay. -/
theorem perform_hands (env : Overlay) :
    ∀ {rest : List Stage}, .interpreter ∉ rest →
      Run.Hands env (rest.filterMap setting.command?) (setting.perform rest)
  | [], _ => .of_keeps (Run.Keeps.pure ())
  | stage :: rest, h => by
    obtain ⟨hstage, hrest⟩ : Stage.interpreter ≠ stage ∧ Stage.interpreter ∉ rest := by
      simpa using h
    have hstep := setting.step_hands env (Ne.symm hstage)
    have hall := hstep.bind fun _ => perform_hands env hrest
    rw [List.filterMap_cons]
    cases hc : setting.command? stage with
    | none => rwa [hc] at hall
    | some command => rwa [hc] at hall

/-- An answer of the interpreter is written to its variable. -/
theorem detectPython_answered {answer : Text}
    (h : answer? setting.script pythonCommand = some answer) (s : Session) :
    ∃ output, detectPython setting.bench s = .ok () { launched s pythonCommand with
      env := s.env.setText pythonName (interpreterOf answer), output } := by
  have hok : setting.bench.runner pythonCommand s = .ok answer (launched s pythonCommand) :=
    scripted_ok h s
  rw [detectPython, Run.bind_of_ok hok, interpreterOf]
  cases readPython? answer with
  | none => exact ⟨_, rfl⟩
  | some found => exact ⟨_, rfl⟩

/-- The overlay that a build goes on with behind the question. -/
def given (shown : Overlay) : Overlay :=
  if setting.host.isPosixLike then
    match answer? setting.script pythonCommand with
    | some answer => shown.setText pythonName (interpreterOf answer)
    | none => shown
  else shown

theorem given_changed (shown : Overlay) :
    Overlay.ChangedAtMost pythonName shown (setting.given shown) := by
  unfold given
  split
  · split
    · exact .set shown pythonName _
    · exact .refl pythonName shown
  · exact .refl pythonName shown

def laterStages (disk : Disk) : List Stage :=
  makingStages setting.bench setting.workspace disk ++ [.seeding, .payload]

theorem stages_eq (disk : Disk) : stages setting.bench setting.workspace disk =
    (if setting.host.isPosixLike then [.interpreter] else []) ++ setting.laterStages disk :=
  List.append_assoc _ _ _

theorem interpreter_not_mem_laterStages (disk : Disk) :
    Stage.interpreter ∉ setting.laterStages disk := by
  unfold laterStages makingStages
  split <;> decide

/-- The commands behind the question are those that make the tools and the payload. -/
theorem laterStages_commands (disk : Disk) :
    ((setting.laterStages disk).filterMap setting.command?).Sublist
      [rebuildCommand setting.host,
        setting.request.command setting.host setting.parameters] := by
  unfold laterStages makingStages
  split
  · exact List.sublist_cons_self _ _
  · exact .refl _

/-- The stages behind the question hand on what they start with. -/
theorem laterStages_after {s : Session} {given : Overlay} (hs : s.env = given) (disk : Disk) :
    ((setting.perform (setting.laterStages disk)).after s).env = given ∧
      ∃ later, later.Sublist [rebuildCommand setting.host,
          setting.request.command setting.host setting.parameters] ∧
        ((setting.perform (setting.laterStages disk)).after s).launches =
          s.launches ++ Run.launchesWith given later := by
  have hhands := setting.perform_hands given (setting.interpreter_not_mem_laterStages disk)
  obtain ⟨henv, later, hsub, hl⟩ := hhands s hs
  exact ⟨henv, later, hsub.trans (setting.laterStages_commands disk), hl⟩

/-- All stages, where the environment that they start with is `shown`. -/
theorem stages_handOn (shown : Overlay) {s : Session} (hs : s.env = shown) (disk : Disk) :
    setting.HandsOn shown (setting.given shown) s
      ((setting.perform (stages setting.bench setting.workspace disk)).after s) := by
  rw [stages_eq]
  cases hposix : setting.host.isPosixLike with
  | false =>
    -- nothing is asked, so that the later stages start with what is shown
    have hgiven : setting.given shown = shown := by simp [given, hposix]
    obtain ⟨henv, later, hsub, hl⟩ := setting.laterStages_after hs disk
    refine ⟨⟨later, hsub, ?_⟩, setting.given_changed shown, fun _ => hgiven, ?_⟩
    · simpa [question, hposix, hgiven] using hl
    · simpa [interpreterAnswers, hposix] using henv
  | true =>
    have hquestion : setting.question shown = [⟨pythonCommand, shown⟩] := by
      simp [question, hposix]
    have hasked : setting.host.isPosixLike = false → setting.given shown = shown := by
      intro hnot
      rw [hposix] at hnot
      cases hnot
    have hperform : setting.perform ([Stage.interpreter] ++ setting.laterStages disk) =
        detectPython setting.bench >>= fun _ => setting.perform (setting.laterStages disk) := rfl
    rw [if_pos rfl, hperform]
    cases ha : answer? setting.script pythonCommand with
    | none =>
      obtain ⟨e, he⟩ := scripted_error ha s
      have hstep : detectPython setting.bench s = .error e (launched s pythonCommand) :=
        Run.bind_of_error he _
      rw [Run.after_error (Run.bind_of_error hstep _)]
      refine ⟨⟨[], List.nil_sublist _, ?_⟩, setting.given_changed shown, hasked, ?_⟩
      · simp [launched, hquestion, hs, Run.launchesWith]
      · simpa [interpreterAnswers, ha, launched] using hs
    | some answer =>
      obtain ⟨output, hstep⟩ := setting.detectPython_answered ha s
      rw [Run.after, Run.bind_of_ok hstep, ← Run.after]
      have hgiven : setting.given shown = s.env.setText pythonName (interpreterOf answer) := by
        simp [given, hposix, ha, hs]
      obtain ⟨henv, later, hsub, hl⟩ := setting.laterStages_after (s := { launched s pythonCommand
        with env := s.env.setText pythonName (interpreterOf answer), output }) hgiven.symm disk
      refine ⟨⟨later, hsub, ?_⟩, setting.given_changed shown, hasked, ?_⟩
      · rw [hl, launched, hs, hquestion]
      · simpa [interpreterAnswers, hposix, ha] using henv

end Setting

/-- **What is shown is what a build hands on.** Wherever preparation succeeds, a build that starts
with the overlay it left asks the interpreter with exactly the environment that is shown, and makes
the tools and the payload with one environment, which differs from it at most in the variable of
the interpreter. -/
theorem run_hands_shown (setting : Setting) (defaults : ToolDefaults) {s prepared start : Session}
    {toolchain : Toolchain}
    (h : Preparation.prepare setting.bench defaults setting.workspace s = .ok toolchain prepared)
    (hstart : start.env = prepared.env) :
    ∃ given, setting.HandsOn
      ((Preparation.environment setting.bench defaults setting.workspace).after s).env given start
      ((run setting.bench setting.parameters setting.request setting.workspace).after start) := by
  have hshown : ((Preparation.environment setting.bench defaults setting.workspace).after s).env =
      start.env.set workspaceName setting.workspace := by
    rw [Preparation.environment, Run.after, Run.bind_of_ok h, hstart]
    rfl
  have hrun : (run setting.bench setting.parameters setting.request setting.workspace).after start =
      (setting.perform (stages setting.bench setting.workspace start.disk)).after
        { start with env := start.env.set workspaceName setting.workspace } := by
    rw [Run.after, setting.run_eq_perform start, ← Run.after]
  rw [hshown, hrun]
  obtain ⟨hlaunches, hchange, hunasked, hleaves⟩ := setting.stages_handOn
    (start.env.set workspaceName setting.workspace)
    (s := { start with env := start.env.set workspaceName setting.workspace }) rfl start.disk
  exact ⟨_, hlaunches, hchange, hunasked, hleaves⟩

/-- A host where the interpreter and the compiler answer and everything else succeeds. -/
def answering : Setting where
  host := .posix
  script := fun line =>
    if line = pythonCommand.line then .output "/usr/bin/python3, 3.11.4\n".toList
    else .output "9\n".toList
  probe := .ofLists [] []
  parameters := {}
  request := {}
  workspace := Utf8.encode "/ws".toList

/-- An environment with another workspace in it and with an interpreter of its own. -/
def elsewhere : Session where
  env := .ofList [(Utf8.encode workspaceName, Utf8.encode "/elsewhere".toList),
    (Utf8.encode pythonName, Utf8.encode "python2".toList)]
  disk := default

theorem answering_hands_shown :
    ∃ prepared, Preparation.prepare answering.bench {} answering.workspace elsewhere =
        .ok { identifier := Toolchain.gcc5, version := "9".toList } prepared ∧
      ∃ given, answering.HandsOn
        ((Preparation.environment answering.bench {} answering.workspace).after elsewhere).env
        given prepared
        ((run answering.bench answering.parameters answering.request
          answering.workspace).after prepared) := by
  obtain ⟨prepared, h⟩ : ∃ prepared,
      Preparation.prepare answering.bench {} answering.workspace elsewhere =
        .ok { identifier := Toolchain.gcc5, version := "9".toList } prepared := ⟨_, rfl⟩
  exact ⟨prepared, h, run_hands_shown answering {} h rfl⟩

end Phases
end FirmwareBuild
