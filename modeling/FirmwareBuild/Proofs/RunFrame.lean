import FirmwareBuild.Session.Runner

/-! # What a step leaves as it was

A step of a run changes a session also when it fails. `Run.Keeps` says that a part
of the session is the same after a step, whatever became of it, and `Run.Gives`
what holds of the answer of a step that succeeds. Both go through sequences of
steps, so that what a runner keeps is kept by all that is built on it. Where what
a step keeps has to be known together with its answer, `Run.Reads` says both. -/

namespace FirmwareBuild.Run

variable {α β γ : Type}

def after (step : Run α) (s : Session) : Session :=
  match step s with
  | .ok _ left => left
  | .error _ left => left

def succeeds (step : Run α) (s : Session) : Bool :=
  match step s with
  | .ok _ _ => true
  | .error _ _ => false

def error? (step : Run α) (s : Session) : Option BuildError :=
  match step s with
  | .ok _ _ => none
  | .error e _ => some e

theorem error?_eq_some {step : Run α} {s : Session} {e : BuildError} :
    step.error? s = some e ↔ ∃ left, step s = .error e left := by
  unfold error?
  cases step s with
  | ok a left => simp
  | error e' left => simp

theorem error?_ok {step : Run α} {s left : Session} {a : α} (h : step s = .ok a left) :
    step.error? s = none := by
  rw [error?, h]

theorem error?_error {step : Run α} {s left : Session} {e : BuildError}
    (h : step s = .error e left) : step.error? s = some e := by
  rw [error?, h]

def launchesWith (env : Overlay) (commands : List Command) : List Launch :=
  commands.map fun command => ⟨command, env⟩

/-- A step that launched some commands and did nothing else ends with an answer or an error. -/
def ends (s : Session) (launched : List Command) :
    Except BuildError α → EStateM.Result BuildError Session α
  | .ok a => .ok a { s with launches := s.launches ++ launchesWith s.env launched }
  | .error e => .error e { s with launches := s.launches ++ launchesWith s.env launched }

def Keeps (part : Session → γ) (step : Run α) : Prop := ∀ s, part (step.after s) = part s

/-- What a step answers with, if it succeeds, has a property. -/
def Gives (p : α → Prop) (step : Run α) : Prop := ∀ s a left, step s = .ok a left → p a

theorem after_ok {step : Run α} {s left : Session} {a : α} (h : step s = .ok a left) :
    step.after s = left := by
  simp [after, h]

theorem after_error {step : Run α} {s left : Session} {e : BuildError}
    (h : step s = .error e left) : step.after s = left := by
  simp [after, h]

theorem bind_of_ok {x : Run α} {s left : Session} {a : α} (h : x s = .ok a left) (f : α → Run β) :
    (x >>= f) s = f a left := by
  simp [bind, EStateM.bind, h]

theorem bind_of_error {x : Run α} {s left : Session} {e : BuildError} (h : x s = .error e left)
    (f : α → Run β) : (x >>= f) s = .error e left := by
  simp [bind, EStateM.bind, h]

theorem after_bind_of_ok {x : Run α} {s left : Session} {a : α} (h : x s = .ok a left)
    (f : α → Run β) : (x >>= f).after s = (f a).after left := by
  rw [after, bind_of_ok h, ← after]

theorem ends_nil_ok (a : α) (s : Session) : ends s [] (.ok a) = .ok a s := by
  rw [ends, launchesWith, List.map_nil, List.append_nil]

theorem ends_nil_error (e : BuildError) (s : Session) :
    (ends s [] (.error e) : EStateM.Result BuildError Session α) = .error e s := by
  rw [ends, launchesWith, List.map_nil, List.append_nil]

/-- Where the next step only goes on with the answer, no more commands are launched. -/
theorem ends_bind {x : Run α} {f : α → Run β} {g : α → Except BuildError β} {s : Session}
    {launched : List Command} {outcome : Except BuildError α} (hx : x s = ends s launched outcome)
    (hf : ∀ a left, f a left = ends left [] (g a)) :
    (x >>= f) s = ends s launched (outcome >>= g) := by
  cases outcome with
  | error e => exact bind_of_error hx f
  | ok a =>
    rw [bind_of_ok hx, hf]
    change _ = ends s launched (g a)
    cases g a with
    | error e => exact ends_nil_error e _
    | ok b => exact ends_nil_ok b _

theorem onDisk_ok {change : Disk.Change α} {s : Session} {a : α} {disk : Disk}
    (h : change s.disk = .ok a disk) (action : FileAction) (path : Bytes) :
    onDisk action path change s = .ok a { s with disk } := by
  simp [onDisk, h]

theorem onDisk_error {change : Disk.Change α} {s : Session} {cause : IoError} {disk : Disk}
    (h : change s.disk = .error cause disk) (action : FileAction) (path : Bytes) :
    onDisk action path change s = .error (.io action path cause) { s with disk } := by
  simp [onDisk, h]

theorem mapError_ok {x : Run α} {s left : Session} {a : α} (h : x s = .ok a left)
    (f : BuildError → BuildError) : mapError f x s = .ok a left := by
  simp [mapError, h]

theorem mapError_error {x : Run α} {s left : Session} {e : BuildError} (h : x s = .error e left)
    (f : BuildError → BuildError) : mapError f x s = .error (f e) left := by
  simp [mapError, h]

/-- What follows a step and does not fail adds no error. -/
theorem error?_bind {x : Run α} {f : α → Run β} (hf : ∀ a s, (f a).error? s = none)
    (s : Session) : (x >>= f).error? s = x.error? s := by
  cases h : x s with
  | ok a middle =>
    rw [error?_ok h, error?, bind_of_ok h]
    exact hf a middle
  | error e left => rw [error?_error h, error?_error (bind_of_error h f)]

theorem error?_mapError (f : BuildError → BuildError) (x : Run α) (s : Session) :
    (mapError f x).error? s = (x.error? s).map f := by
  cases h : x s with
  | ok a left => rw [error?_ok h, error?_ok (mapError_ok h f), Option.map_none]
  | error e left => rw [error?_error h, error?_error (mapError_error h f), Option.map_some]

theorem after_mapError (f : BuildError → BuildError) (x : Run α) (s : Session) :
    (mapError f x).after s = x.after s := by
  cases h : x s with
  | ok a left => rw [after_ok h, after_ok (mapError_ok h f)]
  | error e left => rw [after_error h, after_error (mapError_error h f)]

/-- What follows a step only depends on what the step did. -/
theorem bind_congr {x y : Run α} {s : Session} (h : x s = y s) (f : α → Run β) :
    (x >>= f) s = (y >>= f) s := by
  simp [bind, EStateM.bind, h]

/-- A sequence that succeeds did so step by step. -/
theorem bind_eq_ok {x : Run α} {f : α → Run β} {s left : Session} {b : β}
    (h : (x >>= f) s = .ok b left) : ∃ a middle, x s = .ok a middle ∧ f a middle = .ok b left := by
  cases hx : x s with
  | ok a middle => exact ⟨a, middle, rfl, by rwa [bind_of_ok hx] at h⟩
  | error e middle => rw [bind_of_error hx] at h; cases h

theorem edit_bind (change : Overlay → Overlay) (f : Unit → Run α) (s : Session) :
    (Run.edit change >>= f) s = f () { s with env := change s.env } := rfl

theorem say_bind (line : Text) (f : Unit → Run α) (s : Session) : (Run.say line >>= f) s =
    f () { s with output := s.output ++ (Utf8.encode line ++ Utf8.encode ['\n']) } := rfl

theorem pure_run (a : α) (s : Session) : (pure a : Run α) s = .ok a s := rfl

theorem get_bind (f : Session → Run α) (s : Session) : (get >>= f) s = f s s := rfl

section Keeps
variable {part : Session → γ}

theorem Keeps.pure (a : α) : Keeps part (Pure.pure a : Run α) := fun _ => rfl

theorem Keeps.throw (e : BuildError) : Keeps part (throw e : Run α) := fun _ => rfl

theorem Keeps.get : Keeps part (get : Run Session) := fun _ => rfl

/-- What follows a step and keeps a part does not change what the step made of it. -/
theorem Keeps.after_bind {f : α → Run β} (hf : ∀ a, Keeps part (f a)) (x : Run α) (s : Session) :
    part ((x >>= f).after s) = part (x.after s) := by
  cases h : x s with
  | ok a middle =>
    rw [after_ok h, after, bind_of_ok h]
    exact hf a middle
  | error e middle => rw [after_error h, after_error (bind_of_error h f)]

theorem Keeps.bind {x : Run α} {f : α → Run β} (hx : Keeps part x)
    (hf : ∀ a, Keeps part (f a)) : Keeps part (x >>= f) :=
  fun s => (Keeps.after_bind hf x s).trans (hx s)

theorem Keeps.bind_throw (e : BuildError) (f : α → Run β) :
    Keeps part (MonadExcept.throw e >>= f : Run β) := fun _ => rfl

theorem Keeps.bind_get {f : Session → Run α} (h : ∀ s, part ((f s).after s) = part s) :
    Keeps part (MonadState.get >>= f : Run α) := h

theorem Keeps.bind_set {s new : Session} {f : PUnit → Run α} (hs : part new = part s)
    (hf : Keeps part (f ⟨⟩)) : part ((set new >>= f : Run α).after s) = part s :=
  (hf new).trans hs

theorem Keeps.mapError {x : Run α} (hx : Keeps part x) (f : BuildError → BuildError) :
    Keeps part (Run.mapError f x) := by
  intro s
  have hm := hx s
  unfold after Run.mapError
  unfold after at hm
  cases h : x s <;> simpa [h] using hm

/-- Printing keeps all but the output. -/
theorem Keeps.say (hp : ∀ s output, part { s with output } = part s) (line : Text) :
    Keeps part (Run.say line) := fun s => hp s _

/-- Changing the overlay keeps all but the overlay. -/
theorem Keeps.edit (hp : ∀ s env, part { s with env } = part s) (change : Overlay → Overlay) :
    Keeps part (Run.edit change) := fun s => hp s _

end Keeps

section Gives
variable {p : α → Prop}

theorem Gives.pure {a : α} (h : p a) : Gives p (Pure.pure a : Run α) := by
  intro s b left hb
  cases hb
  exact h

theorem Gives.throw (e : BuildError) : Gives p (throw e : Run α) := by
  intro s a left h
  cases h

theorem Gives.bind {x : Run β} {f : β → Run α} {q : β → Prop} (hx : Gives q x)
    (hf : ∀ b, q b → Gives p (f b)) : Gives p (x >>= f) := by
  intro s a left h
  obtain ⟨b, middle, hb, ha⟩ := bind_eq_ok h
  exact hf b (hx s b middle hb) middle a left ha

end Gives

/-! ## Both at once -/

structure Reads (part : Session → γ) (p : α → Prop) (step : Run α) : Prop where
  keeps : Keeps part step
  gives : Gives p step

section Reads
variable {part : Session → γ} {p : α → Prop}

/-- Every answer has the property that says nothing. -/
theorem Keeps.reads {x : Run α} (h : Keeps part x) : Reads part (fun _ => True) x :=
  ⟨h, fun _ _ _ _ => trivial⟩

theorem Reads.pure {a : α} (h : p a) : Reads part p (Pure.pure a : Run α) :=
  ⟨Keeps.pure a, Gives.pure h⟩

theorem Reads.throw (e : BuildError) : Reads part p (throw e : Run α) :=
  ⟨Keeps.throw e, Gives.throw e⟩

theorem Reads.bind {x : Run β} {f : β → Run α} {q : β → Prop} (hx : Reads part q x)
    (hf : ∀ b, q b → Reads part p (f b)) : Reads part p (x >>= f) := by
  refine ⟨fun s => ?_, Gives.bind hx.gives fun b hb => (hf b hb).gives⟩
  have hm := hx.keeps s
  cases h : x s with
  | ok b middle =>
    rw [after_ok h] at hm
    rw [after, bind_of_ok h]
    exact ((hf b (hx.gives s b middle h)).keeps middle).trans hm
  | error e middle =>
    rw [after_error h] at hm
    rw [after_error (bind_of_error h f)]
    exact hm

end Reads

end FirmwareBuild.Run

namespace FirmwareBuild

open Run

/-! ## Runners -/

namespace Runner

/-- A runner only reads the overlay: it hands it to commands and never writes it. -/
def KeepsOverlay (runner : Runner) : Prop := ∀ command, Keeps Session.env (runner command)

/-- A script changes nothing but the record of launches. -/
theorem scripted_keeps {γ : Type} {part : Session → γ}
    (hp : ∀ s launches, part { s with launches } = part s) (script : Text → Reply)
    (command : Command) : Keeps part (scripted script command) := by
  refine Keeps.bind (fun s => hp s _) fun _ => ?_
  split
  · exact Keeps.pure _
  · exact Keeps.throw _
  · exact Keeps.throw _

def answer? (script : Text → Reply) (command : Command) : Option Text :=
  match script command.line with
  | .output text => some text
  | .exit _ | .notFound => none

def launched (s : Session) (command : Command) : Session :=
  { s with launches := s.launches ++ [⟨command, s.env⟩] }

def reply (script : Text → Reply) (command : Command) : Except BuildError Text :=
  match script command.line with
  | .output text => .ok text
  | .exit status => .error (.commandFailed command.line status)
  | .notFound => .error (.launch command.line .notFound)

theorem scripted_of_reply_ok {script : Text → Reply} {command : Command} {text : Text}
    (h : reply script command = .ok text) (s : Session) :
    scripted script command s = .ok text (launched s command) := by
  unfold reply at h
  cases hr : script command.line <;> rw [hr] at h <;> cases h
  simp only [scripted, hr]
  rfl

theorem scripted_of_reply_error {script : Text → Reply} {command : Command} {e : BuildError}
    (h : reply script command = .error e) (s : Session) :
    scripted script command s = .error e (launched s command) := by
  unfold reply at h
  cases hr : script command.line <;> rw [hr] at h <;> cases h
  all_goals
    simp only [scripted, hr]
    rfl

theorem answer?_eq (script : Text → Reply) (command : Command) :
    answer? script command = (reply script command).toOption := by
  unfold answer? reply
  cases script command.line <;> rfl

theorem scripted_ok {script : Text → Reply} {command : Command} {text : Text}
    (h : answer? script command = some text) (s : Session) :
    scripted script command s = .ok text (launched s command) := by
  rw [answer?_eq] at h
  cases hr : reply script command with
  | ok answer =>
    rw [hr] at h
    obtain rfl := Option.some.inj h
    exact scripted_of_reply_ok hr s
  | error e => rw [hr] at h; cases h

theorem scripted_error {script : Text → Reply} {command : Command}
    (h : answer? script command = none) (s : Session) :
    ∃ e, scripted script command s = .error e (launched s command) := by
  rw [answer?_eq] at h
  cases hr : reply script command with
  | ok answer => rw [hr] at h; cases h
  | error e => exact ⟨e, scripted_of_reply_error hr s⟩

theorem scripted_ends (script : Text → Reply) (command : Command) (s : Session) :
    scripted script command s = ends s [command] (reply script command) := by
  cases h : reply script command with
  | ok text => exact scripted_of_reply_ok h s
  | error e => exact scripted_of_reply_error h s

def refusal? (script : Text → Reply) (command : Command) : Option BuildError :=
  match script command.line with
  | .output _ => none
  | .exit status => some (.commandFailed command.line status)
  | .notFound => some (.launch command.line .notFound)

theorem scripted_error? (script : Text → Reply) (command : Command) (s : Session) :
    (scripted script command).error? s = refusal? script command := by
  rw [error?, scripted_ends, reply, refusal?]
  cases script command.line <;> rfl

theorem refusal?_isNone (script : Text → Reply) (command : Command) :
    (refusal? script command).isNone = (answer? script command).isSome := by
  rw [refusal?, answer?]
  cases script command.line <;> rfl

theorem scripted_keepsOverlay (script : Text → Reply) : KeepsOverlay (scripted script) :=
  scripted_keeps (fun _ _ => rfl) script

/-- A notice keeps all but the output. -/
theorem diagnose_keeps {γ : Type} {part : Session → γ}
    (hp : ∀ s output, part { s with output } = part s) (command : Command) :
    Keeps part (diagnose command) := by
  unfold diagnose
  split
  · exact Keeps.pure _
  · exact Keeps.bind (Keeps.say hp _) fun _ => Keeps.say hp _

/-- A machine gets the variables of the overlay and gives none back. -/
theorem onMachine_keepsOverlay (machine : Machine) : KeepsOverlay (onMachine machine) := by
  intro command
  have failing (e : BuildError) : Keeps Session.env (do diagnose command; throw e : Run Text) :=
    Keeps.bind (diagnose_keeps (fun _ _ => rfl) command) fun _ => Keeps.throw e
  unfold onMachine
  dsimp only
  split
  all_goals
    try refine Keeps.bind (Keeps.say (fun _ _ => rfl) _) fun _ => ?_
    split
    · exact Keeps.bind_throw _ _
    · refine Keeps.bind (fun _ => rfl) fun _ => Keeps.bind_get fun s => Keeps.bind_set rfl ?_
      split
      · exact failing _
      · split
        all_goals
          try refine Keeps.bind (fun _ => rfl) fun _ => ?_
          split
          · exact Keeps.pure _
          · exact failing _

/-- A runner keeps a record of its commands, each with the overlay that it was given. -/
def Notes (runner : Runner) : Prop := ∀ command s, command.argv ≠ [] →
  ((runner command).after s).launches = s.launches ++ [⟨command, s.env⟩]

theorem scripted_notes (script : Text → Reply) : Notes (scripted script) := by
  intro command s _
  refine (Keeps.after_bind (fun _ => ?_) _ s).trans rfl
  split
  · exact Keeps.pure _
  · exact Keeps.throw _
  · exact Keeps.throw _

theorem onMachine_notes (machine : Machine) : Notes (onMachine machine) := by
  intro command s hne
  have failing (e : BuildError) :
      Keeps Session.launches (do diagnose command; throw e : Run Text) :=
    Keeps.bind (diagnose_keeps (fun _ _ => rfl) command) fun _ => Keeps.throw e
  have hprogram : ¬ command.argv.isEmpty = true := by simpa using hne
  have hsay : Run.say command.line s = .ok () { s with
      output := s.output ++ (Utf8.encode command.line ++ Utf8.encode ['\n']) } := rfl
  unfold onMachine
  simp only [if_neg hprogram]
  split
  all_goals
    try rw [after_bind_of_ok hsay]
    -- what comes after the record is made does not change it
    refine (Keeps.after_bind (fun _ => ?_) _ _).trans rfl
    refine Keeps.bind_get fun s => Keeps.bind_set rfl ?_
    split
    · exact failing _
    · split
      all_goals
        try refine Keeps.bind (fun _ => rfl) fun _ => ?_
        split
        · exact Keeps.pure _
        · exact failing _

end Runner

end FirmwareBuild
