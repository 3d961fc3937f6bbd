import FirmwareBuild.Text

/-! # Paths as octets

Paths of the machine the library runs on: names separated by slashes. These
functions look at the spelling of a path only, never at the disk, so `..` is a
name like any other. -/

namespace FirmwareBuild.Pathname

def slash : UInt8 := 0x2F

def here : Bytes := [0x2E]

def up : Bytes := [0x2E, 0x2E]

def isAbsolute (path : Bytes) : Bool := path.head? == some slash

/-- Whether a path ends in a slash, so that it can only name a directory. -/
def endsInSlash (path : Bytes) : Bool := path.getLast? == some slash

/-- The names of a path, in order. Repeated slashes count once. -/
def names (path : Bytes) : List Bytes := (Text.split slash path).filter (· ≠ [])

/-- `path` seen from `base`: an absolute path replaces `base`, any other is put below it. Putting
the empty path below a directory makes sure of a slash at the end. -/
def join (base path : Bytes) : Bytes :=
  if isAbsolute path then path
  else if base.isEmpty || endsInSlash base then base ++ path
  else base ++ slash :: path

/-- The absolute form of a path when `cwd` is the working directory. Repeated slashes and the
name `.` go; the name `..`, a slash at the end and exactly two slashes at the start stay. The
empty path has no absolute form. -/
def absolute? (cwd path : Bytes) : Option Bytes :=
  if path.isEmpty then none
  else
    let start :=
      if path.take 2 = [slash, slash] ∧ path.take 3 ≠ [slash, slash, slash] then [slash, slash]
      else if isAbsolute path then [slash]
      else cwd
    let body := ((names path).filter (· ≠ here)).foldl join start
    some (if endsInSlash path then join body [] else body)

/-- Whether a piece between slashes leads nowhere new. -/
def isIdle (piece : Bytes) : Bool := piece.isEmpty || piece == here

def dropIdle (pieces : List Bytes) : List Bytes := Text.dropEnd isIdle pieces

/-- The path without its last name, if it has a name besides the root. -/
def parent? (path : Bytes) : Option Bytes :=
  let startLength :=
    if isAbsolute path || path = here || path.take 2 = here ++ [slash] then 1 else 0
  let pieces := dropIdle (Text.split slash (path.drop startLength))
  if pieces.isEmpty then if path.take startLength = here then some [] else none
  else some (path.take startLength ++ Text.join [slash] (dropIdle pieces.dropLast))

/-- Cutting the end off leaves a start. -/
theorem dropEnd_le {α : Type} (p : α → Bool) (xs : List α) : Text.dropEnd p xs <+: xs := by
  have h := List.reverse_prefix.2 (List.dropWhile_suffix p (l := xs.reverse))
  simpa [Text.dropEnd] using h

theorem length_join_le_of_start {xs ys : List Bytes} (h : xs <+: ys) :
    (Text.join [slash] xs).length ≤ (Text.join [slash] ys).length := by
  obtain ⟨zs, rfl⟩ := h
  induction xs with
  | nil => simp [Text.join]
  | cons x xs ih =>
    cases xs with
    | nil => cases zs <;> simp [Text.join]
    | cons y xs => simpa [Text.join] using ih

theorem length_join_lt_concat (xs : List Bytes) {x : Bytes} (hx : x ≠ []) :
    (Text.join [slash] xs).length < (Text.join [slash] (xs ++ [x])).length := by
  have hpos := List.length_pos_iff.2 hx
  induction xs with
  | nil => simpa [Text.join] using hpos
  | cons y xs ih =>
    cases xs with
    | nil => simp [Text.join]
    | cons z xs => simpa [Text.join] using ih

/-- The last of the pieces that are left names something. -/
theorem getLast_dropIdle_ne_nil {pieces : List Bytes} (h : dropIdle pieces ≠ []) :
    (dropIdle pieces).getLast h ≠ [] := by
  have hd : pieces.reverse.dropWhile isIdle ≠ [] := by
    simpa [dropIdle, Text.dropEnd] using h
  have hn := List.head_dropWhile_not isIdle hd
  intro he
  simp only [dropIdle, Text.dropEnd, List.getLast_reverse] at he
  simp [he, isIdle] at hn

/-- A path is longer than its parent. -/
theorem length_parent_lt {path q : Bytes} (h : parent? path = some q) :
    q.length < path.length := by
  simp only [parent?] at h
  generalize (if (isAbsolute path || decide (path = here) ||
    decide (path.take 2 = here ++ [slash])) = true then 1 else 0) = n at h
  generalize hp : dropIdle (Text.split slash (path.drop n)) = pieces at h
  split at h
  · split at h
    · obtain rfl : q = [] := by simpa using h.symm
      cases path <;> simp_all [here]
    · simp at h
  · rename_i hne
    obtain rfl := Option.some.inj h
    have hpieces : pieces ≠ [] := by simpa using hne
    have hlast : pieces.getLast hpieces ≠ [] := by
      subst hp
      exact getLast_dropIdle_ne_nil hpieces
    have hle := length_join_le_of_start (dropEnd_le isIdle pieces.dropLast)
    have hlt := length_join_lt_concat pieces.dropLast hlast
    rw [List.dropLast_concat_getLast] at hlt
    have hall := length_join_le_of_start (dropEnd_le isIdle (Text.split slash (path.drop n)))
    rw [Text.join_split, ← dropIdle, hp] at hall
    have hlen : path.length = (path.take n).length + (path.drop n).length := by
      rw [← List.length_append, List.take_append_drop]
    simp only [List.length_append, dropIdle]
    omega

end FirmwareBuild.Pathname
