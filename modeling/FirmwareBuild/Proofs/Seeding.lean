import FirmwareBuild.ConfDirectory
import FirmwareBuild.Proofs.RunFrame

/-! # Seeding as a change of the disk

Making the configuration directory complete reads the disk and changes the disk.
What it does, how far it gets and whether it succeeds depend on nothing else in
the session, and nothing else in the session is different afterwards. -/

namespace FirmwareBuild.Run

variable {α β : Type}

def DiskOnly (step : Run α) : Prop :=
  ∀ s, step s = match step { disk := s.disk } with
    | .ok a left => .ok a { s with disk := left.disk }
    | .error e left => .error e { s with disk := left.disk }

theorem DiskOnly.pure (a : α) : DiskOnly (Pure.pure a) := fun _ => rfl

theorem DiskOnly.onDisk (action : FileAction) (path : Bytes) (change : Disk.Change α) :
    DiskOnly (Run.onDisk action path change) := by
  intro s
  unfold Run.onDisk
  cases h : change s.disk <;> rfl

theorem DiskOnly.bind {x : Run α} {f : α → Run β} (hx : DiskOnly x)
    (hf : ∀ a, DiskOnly (f a)) : DiskOnly (x >>= f) := by
  intro s
  have hxs := hx s
  cases h : x { disk := s.disk } with
  | ok a left =>
    rw [h] at hxs
    rw [bind_of_ok h, bind_of_ok hxs, hf a left, hf a { s with disk := left.disk }]
    cases f a { disk := left.disk } <;> rfl
  | error e left =>
    rw [h] at hxs
    rw [bind_of_error h, bind_of_error hxs]

/-- Asking the disk a question and going on by the answer. -/
theorem DiskOnly.bind_get {f : Session → Run α} {g : Disk → Run α} (hfg : ∀ s, f s = g s.disk)
    (hg : ∀ disk, DiskOnly (g disk)) : DiskOnly (get >>= f) := by
  intro s
  change f s s = match f { disk := s.disk } { disk := s.disk } with
    | .ok a left => .ok a { s with disk := left.disk }
    | .error e left => .error e { s with disk := left.disk }
  rw [hfg, hfg]
  exact hg s.disk s

theorem DiskOnly.after {step : Run α} (h : DiskOnly step) (s : Session) :
    step.after s = { s with disk := (step.after { disk := s.disk }).disk } := by
  unfold Run.after
  rw [h s]
  cases step { disk := s.disk } <;> rfl

theorem DiskOnly.succeeds {step : Run α} (h : DiskOnly step) (s : Session) :
    step.succeeds s = step.succeeds { disk := s.disk } := by
  unfold Run.succeeds
  rw [h s]
  cases step { disk := s.disk } <;> rfl

theorem DiskOnly.error? {step : Run α} (h : DiskOnly step) (s : Session) :
    step.error? s = step.error? { disk := s.disk } := by
  unfold Run.error?
  rw [h s]
  cases step { disk := s.disk } <;> rfl

end FirmwareBuild.Run

namespace FirmwareBuild.ConfDirectory

open Run

theorem copyMissing_diskOnly (workspace : Bytes) :
    ∀ files, DiskOnly (copyMissing workspace files)
  | [] => DiskOnly.pure _
  | file :: rest => by
    refine DiskOnly.bind_get (g := fun disk => if disk.pathExists (filePath workspace file) then
      copyMissing workspace rest else _) (fun _ => rfl) fun disk => ?_
    split
    · exact copyMissing_diskOnly workspace rest
    · exact DiskOnly.bind (DiskOnly.onDisk _ _ _) fun _ =>
        DiskOnly.bind (copyMissing_diskOnly workspace rest) fun _ => DiskOnly.pure _

theorem seed_diskOnly (workspace : Bytes) : DiskOnly (seed workspace) :=
  DiskOnly.bind (DiskOnly.onDisk _ _ _) fun _ => copyMissing_diskOnly workspace files

/-- A file that is there is left alone. -/
theorem copyMissing_of_exists {workspace : Bytes} {file : Text} {s : Session}
    (h : s.disk.pathExists (filePath workspace file) = true) (rest : List Text) :
    copyMissing workspace (file :: rest) s = copyMissing workspace rest s := by
  rw [copyMissing, get_bind, if_pos h]

/-- For a file that is not there its template is copied. -/
theorem copyMissing_of_missing {workspace : Bytes} {file : Text} {s : Session}
    (h : s.disk.pathExists (filePath workspace file) = false) (rest : List Text) :
    copyMissing workspace (file :: rest) s = (do
      Run.onDisk .copy (templatePath workspace file)
        (Disk.copy (templatePath workspace file) (filePath workspace file))
      return file :: (← copyMissing workspace rest)) s := by
  rw [copyMissing, get_bind, if_neg (h ▸ Bool.false_ne_true)]

theorem copyMissing_append (workspace : Bytes) (front back : List Text) :
    copyMissing workspace (front ++ back) = (do
      let copied ← copyMissing workspace front
      let others ← copyMissing workspace back
      return copied ++ others) := by
  induction front with
  | nil => simp [copyMissing]
  | cons file rest ih =>
    simp only [List.cons_append, copyMissing, bind_assoc]
    refine congrArg (get >>= ·) (funext fun s => ?_)
    split
    · exact ih
    · simp only [ih, bind_assoc, pure_bind, List.cons_append]

/-- What seeding a workspace makes of a disk, also where it stops halfway. -/
def seeded (workspace : Bytes) (disk : Disk) : Disk := ((seed workspace).after { disk }).disk

def isSeedable (workspace : Bytes) (disk : Disk) : Bool := (seed workspace).succeeds { disk }

end FirmwareBuild.ConfDirectory
